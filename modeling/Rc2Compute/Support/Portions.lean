import Mathlib.Data.List.Basic

/-!
# Handling the front of a list

When some of the elements of a list are paired with what handles them, the
others stay.
-/

namespace Rc2Compute

variable {α β : Type}

/-- The elements handled and those that stay are all elements, in order. -/
theorem map_snd_zip_append_drop (as : List α) (bs : List β) :
    (as.zip bs).map Prod.snd ++ bs.drop as.length = bs := by
  induction as generalizing bs with
  | nil => rfl
  | cons a as ih =>
      cases bs with
      | nil => rfl
      | cons b bs => exact congrArg (b :: ·) (ih bs)

theorem map_fst_zip_sublist (as : List α) (bs : List β) :
    ((as.zip bs).map Prod.fst).Sublist as := by
  induction as generalizing bs with
  | nil => exact List.Sublist.refl _
  | cons a as ih =>
      cases bs with
      | nil => exact List.nil_sublist _
      | cons b bs => exact (ih bs).cons_cons a

/-- An element is handled or stays. -/
theorem mem_zip_or_drop (as : List α) {bs : List β} {b : β} (h : b ∈ bs) :
    (∃ entry ∈ as.zip bs, entry.2 = b) ∨ b ∈ bs.drop as.length := by
  rw [← map_snd_zip_append_drop as bs, List.mem_append, List.mem_map] at h
  exact h

end Rc2Compute
