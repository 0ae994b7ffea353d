import Mathlib.Algebra.GroupWithZero.Nat
import Mathlib.Algebra.Order.BigOperators.Group.List
import Mathlib.Data.List.Basic
import Mathlib.Data.Nat.Notation

/-!
# Records of varying length

Records are laid out one behind the other, each with a size of its own.  A
reader walks over them by adding the size it finds in a record to the offset
of the record.  From the beginning of a record, and as long as it finds the
right sizes, it visits the beginning of every record up to its bound.
-/

namespace Rc2Compute.Records

/-! ## Layout -/

section

variable {α β : Type} (size : α → ℕ)

/-- The records with the offsets at which they begin. -/
def located : ℕ → List α → List (ℕ × α)
  | _, [] => []
  | offset, a :: as => (offset, a) :: located (offset + size a) as

/-- The room the records take. -/
def total (as : List α) : ℕ :=
  (as.map size).sum

@[simp] theorem total_nil : total size [] = 0 := rfl

@[simp] theorem total_cons (a : α) (as : List α) :
    total size (a :: as) = size a + total size as :=
  List.sum_cons

@[simp] theorem total_append (as bs : List α) :
    total size (as ++ bs) = total size as + total size bs := by
  rw [total, List.map_append, List.sum_append, total, total]

theorem located_append (offset : ℕ) (as bs : List α) :
    located size offset (as ++ bs) =
      located size offset as ++ located size (offset + total size as) bs := by
  induction as generalizing offset with
  | nil => simp [located]
  | cons a as ih => simp [located, ih, Nat.add_assoc]

/-- The same records further behind. -/
theorem located_add (shift offset : ℕ) (as : List α) :
    located size (shift + offset) as =
      (located size offset as).map fun entry => (shift + entry.1, entry.2) := by
  induction as generalizing offset with
  | nil => rfl
  | cons a as ih => simp [located, ← ih, Nat.add_assoc]

variable {size}

/-- A record begins behind the records before it. -/
theorem mem_located {offset start : ℕ} {a : α} {as : List α}
    (h : (start, a) ∈ located size offset as) :
    ∃ before after, as = before ++ a :: after ∧
      start = offset + total size before := by
  induction as generalizing offset with
  | nil => cases h
  | cons first as ih =>
      rw [located, List.mem_cons] at h
      rcases h with hfirst | hrest
      · cases hfirst
        exact ⟨[], as, rfl, rfl⟩
      · obtain ⟨before, after, has, hstart⟩ := ih hrest
        refine ⟨first :: before, after, by rw [has]; rfl, ?_⟩
        rw [hstart, total_cons, Nat.add_assoc]

theorem located_bounds {offset start : ℕ} {a : α} {as : List α}
    (h : (start, a) ∈ located size offset as) :
    offset ≤ start ∧ start + size a ≤ offset + total size as := by
  obtain ⟨before, after, rfl, rfl⟩ := mem_located h
  simp only [total_append, total_cons]
  omega

theorem length_flatMap_write {write : α → List β}
    (hsize : ∀ a, size a = (write a).length) (as : List α) :
    (as.flatMap write).length = total size as := by
  obtain rfl : size = fun a => (write a).length := funext hsize
  rw [List.length_flatMap, total]

/-- Where records are written as they are long, each is found at its
offset. -/
theorem getElem?_of_located {write : α → List β}
    (hsize : ∀ a, size a = (write a).length) {start : ℕ} {a : α}
    {as : List α} (h : (start, a) ∈ located size 0 as) {i : ℕ}
    (hi : i < size a) :
    (as.flatMap write)[start + i]? = (write a)[i]? := by
  obtain ⟨before, after, rfl, rfl⟩ := mem_located h
  have hlength := length_flatMap_write hsize before
  rw [hsize] at hi
  rw [List.flatMap_append, List.flatMap_cons, Nat.zero_add, ← hlength,
    List.getElem?_append_right (by omega), Nat.add_sub_cancel_left,
    List.getElem?_append_left hi]

end

/-! ## Walking -/

/-- The offsets visited from `offset` on, each as far behind the one before it
as `next` says, up to the bound. -/
def walk (next : ℕ → ℕ) (bound : ℕ) : ℕ → ℕ → List ℕ
  | 0, _ => []
  | fuel + 1, offset =>
      if offset < bound then offset :: walk next bound fuel (next offset)
      else []

theorem walk_of_le {next : ℕ → ℕ} {bound offset : ℕ} (h : bound ≤ offset)
    (fuel : ℕ) : walk next bound fuel offset = [] := by
  cases fuel with
  | zero => rfl
  | succ fuel => exact if_neg (by omega)

/-- The walk begins where it is told to. -/
theorem mem_walk {next : ℕ → ℕ} {bound offset fuel : ℕ}
    (h : offset < bound) (hfuel : 0 < fuel) :
    offset ∈ walk next bound fuel offset := by
  obtain ⟨fuel, rfl⟩ := Nat.exists_eq_succ_of_ne_zero hfuel.ne'
  rw [walk, if_pos h]
  exact List.mem_cons_self

/-- From the beginning of a record the walk visits the beginnings of the
records before the bound, in order. -/
theorem walk_located {α : Type} {size : α → ℕ} (hpos : ∀ a, 0 < size a)
    {next : ℕ → ℕ} {bound offset fuel : ℕ} {as : List α}
    (hnext : ∀ start a, (start, a) ∈ located size offset as → start < bound →
      next start = start + size a)
    (hbound : bound ≤ offset + total size as) (hfuel : bound ≤ offset + fuel) :
    walk next bound fuel offset =
      ((located size offset as).filter fun entry => entry.1 < bound).map
        Prod.fst := by
  induction as generalizing offset fuel with
  | nil => exact walk_of_le hbound fuel
  | cons a as ih =>
      by_cases hinside : offset < bound
      · obtain ⟨fuel, rfl⟩ :=
          Nat.exists_eq_succ_of_ne_zero (n := fuel) (by omega)
        have hstep : next offset = offset + size a :=
          hnext offset a List.mem_cons_self hinside
        have hsize := hpos a
        rw [total_cons] at hbound
        rw [walk, if_pos hinside, hstep, located, List.filter_cons,
          if_pos (decide_eq_true hinside), List.map_cons]
        congr 1
        apply ih
        · intro start b hb
          exact hnext start b (List.mem_cons_of_mem _ hb)
        · omega
        · omega
      · have hnone : ∀ entry ∈ located size offset (a :: as),
            ¬decide (entry.1 < bound) = true := by
          rintro ⟨start, b⟩ hentry
          have hbounds := located_bounds hentry
          rw [decide_eq_true_eq]
          omega
        rw [walk_of_le (not_lt.mp hinside), List.filter_eq_nil_iff.mpr hnone]
        rfl

end Rc2Compute.Records
