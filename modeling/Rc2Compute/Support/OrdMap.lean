import Std.Data.TreeMap
import Mathlib.Data.List.Basic
import Mathlib.Order.Defs.LinearOrder

/-!
# Ordered maps

`Std.TreeMap` stands for `std::map`: lookups, `insert` and `erase` by key and
iteration in key order.  Its library lemmas speak about `compare k a = .eq`;
the lemmas here speak about `k = a`, which is what a proof about keys with a
lawful order needs.
-/

namespace Rc2Compute

/-- A map with keys in order. -/
abbrev Map (κ ν : Type) [Ord κ] := Std.TreeMap κ ν

namespace Map

variable {κ ν : Type} [Ord κ] [Std.TransOrd κ] [Std.LawfulEqOrd κ]
  [DecidableEq κ]

theorem getElem?_insert (m : Map κ ν) (k a : κ) (v : ν) :
    (m.insert k v)[a]? = if k = a then some v else m[a]? := by
  rw [Std.TreeMap.getElem?_insert]
  simp only [Std.LawfulEqCmp.compare_eq_iff_eq]

theorem getElem?_erase (m : Map κ ν) (k a : κ) :
    (m.erase k)[a]? = if k = a then none else m[a]? := by
  rw [Std.TreeMap.getElem?_erase]
  simp only [Std.LawfulEqCmp.compare_eq_iff_eq]

theorem getElem?_modify (m : Map κ ν) (k a : κ) (f : ν → ν) :
    (m.modify k f)[a]? = if k = a then m[a]?.map f else m[a]? := by
  rw [Std.TreeMap.getElem?_modify]
  simp only [Std.LawfulEqCmp.compare_eq_iff_eq]
  split
  next h => rw [h]
  next => rfl

@[simp] theorem getElem?_insert_self (m : Map κ ν) (k : κ) (v : ν) :
    (m.insert k v)[k]? = some v := by
  rw [getElem?_insert, if_pos rfl]

theorem getElem?_insert_of_ne (m : Map κ ν) {k a : κ} (v : ν)
    (h : k ≠ a) : (m.insert k v)[a]? = m[a]? := by
  rw [getElem?_insert, if_neg h]

@[simp] theorem getElem?_erase_self (m : Map κ ν) (k : κ) :
    (m.erase k)[k]? = none := by
  rw [getElem?_erase, if_pos rfl]

theorem getElem?_erase_of_ne (m : Map κ ν) {k a : κ} (h : k ≠ a) :
    (m.erase k)[a]? = m[a]? := by
  rw [getElem?_erase, if_neg h]

theorem getElem?_insertIfNew (m : Map κ ν) (k a : κ) (v : ν) :
    (m.insertIfNew k v)[a]? =
      if k = a ∧ m[k]? = none then some v else m[a]? := by
  have hk : k ∉ m ↔ m[k]? = none := by
    rw [Std.TreeMap.mem_iff_isSome_getElem?, Option.not_isSome_iff_eq_none]
  rw [Std.TreeMap.getElem?_insertIfNew]
  simp only [Std.LawfulEqCmp.compare_eq_iff_eq, hk]

theorem getElem?_insertIfNew_of_none {m : Map κ ν} (k : κ) (v : ν)
    {a : κ} (h : m[k]? = none) :
    (m.insertIfNew k v)[a]? = if k = a then some v else m[a]? := by
  rw [getElem?_insertIfNew]
  simp only [h, and_true]

omit [DecidableEq κ] in
theorem mem_toList (m : Map κ ν) {k : κ} {v : ν} :
    (k, v) ∈ m.toList ↔ m[k]? = some v :=
  Std.TreeMap.mem_toList_iff_getElem?_eq_some

omit [DecidableEq κ] in
theorem key_unique_of_append {m : Map κ ν} {k : κ} {v : ν}
    {l r : List (κ × ν)} (h : m.toList = l ++ (k, v) :: r) :
    (∀ p ∈ l, p.1 ≠ k) ∧ (∀ p ∈ r, p.1 ≠ k) := by
  have hkeys := Std.TreeMap.distinct_keys_toList (t := m)
  rw [h, List.pairwise_append, List.pairwise_cons] at hkeys
  simp only [Std.LawfulEqCmp.compare_eq_iff_eq] at hkeys
  refine ⟨fun p hp => ?_, fun p hp heq => ?_⟩
  · exact hkeys.2.2 p hp (k, v) (by simp)
  · exact hkeys.2.1.1 p hp heq.symm

omit [DecidableEq κ] in
theorem nodup_toList (m : Map κ ν) : m.toList.Nodup := by
  refine (Std.TreeMap.distinct_keys_toList (t := m)).imp ?_
  rintro p q hne rfl
  exact hne (Std.ReflCmp.compare_self)

omit [DecidableEq κ] in
theorem toList_eq_nil {m : Map κ ν} (h : ∀ k : κ, m[k]? = none) :
    m.toList = [] := by
  refine List.eq_nil_iff_forall_not_mem.mpr fun p hp => ?_
  have hmem := (mem_toList m).mp (show (p.1, p.2) ∈ m.toList from hp)
  rw [h] at hmem
  cases hmem

/-- The entries of a map with one more key. -/
theorem toList_perm_cons {m m' : Map κ ν} {k : κ} {v : ν} (h : m[k]? = none)
    (h' : ∀ a : κ, m'[a]? = if k = a then some v else m[a]?) :
    m'.toList.Perm ((k, v) :: m.toList) := by
  have hnew : (k, v) ∉ m.toList := by
    rw [mem_toList, h]
    exact Option.some_ne_none v ∘ Eq.symm
  refine (List.perm_ext_iff_of_nodup (nodup_toList m')
    (List.nodup_cons.mpr ⟨hnew, nodup_toList m⟩)).mpr ?_
  rintro ⟨a, b⟩
  rw [mem_toList, h', List.mem_cons, mem_toList, Prod.mk.injEq]
  by_cases hk : k = a
  · subst hk
    simp [h, eq_comm]
  · have hk' : a ≠ k := fun heq => hk heq.symm
    simp [hk, hk']

/-- Selecting the entries of one key from the list of all entries. -/
theorem filterMap_toList_eq (m : Map κ ν) (k : κ) {ω : Type}
    (f : ν → Option ω) :
    m.toList.filterMap (fun p => if p.1 = k then f p.2 else none) =
      (m[k]?.bind f).toList := by
  have hskip : ∀ l : List (κ × ν), (∀ p ∈ l, p.1 ≠ k) →
      l.filterMap (fun p => if p.1 = k then f p.2 else none) = [] := by
    intro l hl
    simp only [List.filterMap_eq_nil_iff]
    intro p hp
    rw [if_neg (hl p hp)]
  cases hk : m[k]? with
  | none =>
      refine hskip _ fun p hp heq => ?_
      have hmem := (mem_toList m).mp hp
      rw [heq, hk] at hmem
      cases hmem
  | some v =>
      obtain ⟨l, r, hlr⟩ := List.append_of_mem ((mem_toList m).mpr hk)
      have hunique := key_unique_of_append hlr
      rw [hlr, List.filterMap_append, List.filterMap_cons,
        hskip l hunique.1, hskip r hunique.2]
      cases hf : f v with
      | none => simp [hf]
      | some b => simp [hf]

end Map

end Rc2Compute
