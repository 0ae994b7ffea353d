import Mathlib.Data.List.Basic
import Mathlib.Order.Lattice

/-!
# Differences of sorted lists

`std::sort` and `std::set_difference` with a comparison function.  The lemmas
are about comparisons that order the elements by a key in a linear order:
between lists sorted by the key, the difference keeps the elements whose key
the second list does not have.
-/

namespace Rc2Compute

variable {α κ : Type} [LinearOrder κ]

/-- `std::sort`. -/
def sortBy (lt : α → α → Bool) (xs : List α) : List α :=
  xs.mergeSort fun a b => !lt b a

/-- `std::set_difference`. -/
def setDifference (lt : α → α → Bool) : List α → List α → List α
  | [], _ => []
  | x :: xs, [] => x :: xs
  | x :: xs, y :: ys =>
      if lt x y then x :: setDifference lt xs (y :: ys)
      else if lt y x then setDifference lt (x :: xs) ys
      else setDifference lt xs ys
termination_by xs ys => xs.length + ys.length

/-- `lt` compares elements by their keys. -/
def ComparesBy (lt : α → α → Bool) (key : α → κ) : Prop :=
  ∀ a b, lt a b = true ↔ key a < key b

theorem ComparesBy.not_lt {lt : α → α → Bool} {key : α → κ}
    (hlt : ComparesBy lt key) (a b : α) :
    (!lt b a) = true ↔ key a ≤ key b := by
  rw [Bool.not_eq_true', ← Bool.not_eq_true, hlt, ← not_le, not_not]

/-- The keys of a list rise. -/
def SortedBy (key : α → κ) (xs : List α) : Prop :=
  xs.Pairwise fun a b => key a < key b

section Sorting

variable {lt : α → α → Bool} {key : α → κ} {xs : List α}

theorem sortBy_perm (lt : α → α → Bool) (xs : List α) :
    (sortBy lt xs).Perm xs :=
  List.mergeSort_perm xs _

theorem sortBy_of_sortedBy (hlt : ComparesBy lt key) (h : SortedBy key xs) :
    sortBy lt xs = xs := by
  apply List.mergeSort_of_pairwise
  apply h.imp
  intro a b hab
  exact (hlt.not_lt a b).mpr hab.le

/-- Sorting a list without two elements of one key. -/
theorem sortedBy_sortBy (hlt : ComparesBy lt key) (hkeys : (xs.map key).Nodup) :
    SortedBy key (sortBy lt xs) := by
  have hle : (sortBy lt xs).Pairwise fun a b => (!lt b a) = true := by
    apply List.pairwise_mergeSort
    · intro a b c hab hbc
      rw [hlt.not_lt] at hab hbc ⊢
      exact hab.trans hbc
    · intro a b
      rw [Bool.or_eq_true, hlt.not_lt, hlt.not_lt]
      exact le_total (key a) (key b)
  have hne : (sortBy lt xs).Pairwise fun a b => key a ≠ key b := by
    apply List.pairwise_map.mp
    exact ((sortBy_perm lt xs).map key).nodup_iff.mpr hkeys
  apply (hle.and hne).imp
  rintro a b ⟨hab, hne⟩
  exact lt_of_le_of_ne ((hlt.not_lt a b).mp hab) hne

end Sorting

section Difference

variable {lt : α → α → Bool} {key : α → κ}

theorem setDifference_sublist (lt : α → α → Bool) (xs ys : List α) :
    (setDifference lt xs ys).Sublist xs := by
  fun_induction setDifference lt xs ys with
  | case1 ys => exact List.Sublist.refl []
  | case2 x xs => exact List.Sublist.refl (x :: xs)
  | case3 x xs y ys hless ih => exact ih.cons_cons x
  | case4 x xs y ys hless hgreater ih => exact ih
  | case5 x xs y ys hless hgreater ih => exact ih.cons x

/-- The difference has the elements without a partner in the second list. -/
theorem mem_setDifference (hlt : ComparesBy lt key) {xs ys : List α}
    (hxs : SortedBy key xs) (hys : SortedBy key ys) {a : α} :
    a ∈ setDifference lt xs ys ↔ a ∈ xs ∧ ∀ y ∈ ys, key y ≠ key a := by
  fun_induction setDifference lt xs ys with
  | case1 ys => simp
  | case2 x xs => simp
  | case3 x xs y ys hless ih =>
      obtain ⟨hx, hxs⟩ := List.pairwise_cons.mp hxs
      have hxy : key x < key y := (hlt x y).mp hless
      have hsmall : ∀ z ∈ y :: ys, key z ≠ key x := by
        intro z hz
        rcases List.mem_cons.mp hz with rfl | hz
        · exact ne_of_gt hxy
        · exact ne_of_gt (hxy.trans ((List.pairwise_cons.mp hys).1 z hz))
      rw [List.mem_cons, ih hxs hys, List.mem_cons]
      constructor
      · rintro (rfl | ⟨ha, hnone⟩)
        · exact ⟨Or.inl rfl, hsmall⟩
        · exact ⟨Or.inr ha, hnone⟩
      · rintro ⟨rfl | ha, hnone⟩
        · exact Or.inl rfl
        · exact Or.inr ⟨ha, hnone⟩
  | case4 x xs y ys hless hgreater ih =>
      have hyx : key y < key x := (hlt y x).mp hgreater
      have hlarge : a ∈ x :: xs → key y ≠ key a := by
        intro ha
        rcases List.mem_cons.mp ha with rfl | ha
        · exact ne_of_lt hyx
        · exact ne_of_lt (hyx.trans ((List.pairwise_cons.mp hxs).1 a ha))
      rw [ih hxs (List.pairwise_cons.mp hys).2, List.forall_mem_cons]
      constructor
      · rintro ⟨ha, hnone⟩
        exact ⟨ha, hlarge ha, hnone⟩
      · rintro ⟨ha, -, hnone⟩
        exact ⟨ha, hnone⟩
  | case5 x xs y ys hless hgreater ih =>
      obtain ⟨hx, hxs⟩ := List.pairwise_cons.mp hxs
      have hkey : key y = key x := by
        apply le_antisymm
        · exact not_lt.mp fun h => hless ((hlt x y).mpr h)
        · exact not_lt.mp fun h => hgreater ((hlt y x).mpr h)
      rw [ih hxs (List.pairwise_cons.mp hys).2, List.forall_mem_cons,
        List.mem_cons]
      constructor
      · rintro ⟨ha, hnone⟩
        exact ⟨Or.inr ha, hkey ▸ ne_of_lt (hx a ha), hnone⟩
      · rintro ⟨rfl | ha, hne, hnone⟩
        · exact absurd hkey hne
        · exact ⟨ha, hnone⟩

theorem sortedBy_setDifference {xs : List α} (hxs : SortedBy key xs)
    (ys : List α) : SortedBy key (setDifference lt xs ys) :=
  hxs.sublist (setDifference_sublist lt xs ys)

end Difference

end Rc2Compute
