import Rc2Compute.Environment.Visits
import Mathlib.Data.Set.Finite.Lattice

/-!
# Termination

When encoding variables terminates.  Nothing keeps the encoder from entering
an object it is still encoding, as an environment that is bound in itself.
-/

namespace Rc2Compute.Environment

section Terminating

variable (R : Engine) (heap : Heap) (env : SEXP)

/-- Some depth of calls is enough. -/
def Terminates (w : Watcher) (request : Request) : Prop :=
  ∃ fuel, (encode R heap fuel env request w).1 ≠ .threw .outOfFuel

/-- A call of these that is entered, and all calls it enters, are not entered
again from themselves. -/
def NeverReenters (starts : List Visit) : Prop :=
  ∀ c, (encoding R heap).EnteredIn starts c →
    ∀ k, Relation.ReflTransGen (encoding R heap).Entered c k →
      ¬Relation.TransGen (encoding R heap).Entered k k

theorem endingOf_eq_outOfFuel {α : Type} {o : Outcome Halt α} :
    endingOf o = .outOfFuel ↔ o = .threw .outOfFuel := by
  cases o with
  | returned a => exact iff_of_false nofun nofun
  | threw h =>
      cases h with
      | exception e => exact iff_of_false nofun nofun
      | outOfFuel => exact iff_of_true rfl rfl
  | undefined => exact iff_of_false nofun nofun

/-- A request terminates when no infinite chain of calls is entered. -/
theorem terminates_iff_acc (w : Watcher) (request : Request) :
    Terminates R heap env w request ↔
      ∀ c, (encoding R heap).EnteredIn (startCalls heap env w request) c →
        Acc (flip (encoding R heap).Entered) c := by
  rw [← Recursion.exists_visitAll_ne_iff]
  apply exists_congr
  intro fuel
  apply (not_congr endingOf_eq_outOfFuel).symm.trans
  rw [(encode_follows R heap fuel env w request).1]
  rfl

/-! ## Finitely many calls -/

/-- The calls a call makes depend on its object only, and on whether the
children of a list are included. -/
theorem calls_eq (k : Visit) :
    calls R heap k =
      calls R heap (⟨"", k.1.robj, k.1.includeListChildren⟩, []) := rfl

theorem calls_of_length_le {k : Visit}
    (h : heap.objects.length ≤ k.1.robj) : calls R heap k = [] := by
  have hobject : heap.object k.1.robj = .plain .null := by
    rw [Heap.object, List.getD_eq_getElem?_getD, List.getElem?_eq_none h]
    rfl
  rw [calls, hobject]
  rfl

/-- The calls that are made by some call. -/
def madeCalls : Set Visit :=
  {c | ∃ k, c ∈ calls R heap k}

theorem madeCalls_finite : (madeCalls R heap).Finite := by
  have hall : (⋃ s ∈ Finset.range heap.objects.length, ⋃ flag : Bool,
      {c | c ∈ calls R heap (⟨"", s, flag⟩, [])}).Finite := by
    apply Set.Finite.biUnion (Finset.finite_toSet _)
    intro s _
    apply Set.finite_iUnion
    intro flag
    exact List.finite_toSet _
  apply hall.subset
  rintro c ⟨k, hk⟩
  have hlt : k.1.robj < heap.objects.length := by
    by_contra hge
    rw [calls_of_length_le R heap (Nat.le_of_not_lt hge)] at hk
    cases hk
  rw [calls_eq] at hk
  simp only [Set.mem_iUnion]
  exact ⟨k.1.robj, Finset.mem_range.mpr hlt, k.1.includeListChildren, hk⟩

/-- A request terminates exactly when no call it enters is entered again from
itself. -/
theorem terminates_iff (w : Watcher) (request : Request) :
    Terminates R heap env w request ↔
      NeverReenters R heap (startCalls heap env w request) := by
  rw [terminates_iff_acc]
  apply forall_congr'
  intro c
  apply imp_congr_right
  intro _
  apply Recursion.acc_iff_of_finite (S := insert c (madeCalls R heap))
  · exact (madeCalls_finite R heap).insert c
  · intro b _ d hd
    exact Set.mem_insert_of_mem c ⟨b, hd.mem_callees⟩
  · exact Set.mem_insert c _

end Terminating

/-! ## An environment in itself -/

/-- The global environment at address 1, with `e` bound to an environment at 2
in which `self` is bound to that environment. -/
def selfHeap : Heap where
  objects := [.plain .null, .plain (.environment [("e", 2)]),
    .plain (.environment [("self", 2)])]

/-- The call for `self`. -/
def selfCall : Visit :=
  (bindingCall selfHeap 2 "self", [("name", .string "self")])

theorem not_terminates_self :
    ¬Terminates bareEngine selfHeap 1 ⟨[], []⟩ (.value "e") := by
  have hself : (encoding bareEngine selfHeap).Entered selfCall selfCall :=
    ⟨rfl, [], [], rfl, nofun⟩
  have hstart : (encoding bareEngine selfHeap).Entered
      (bindingCall selfHeap 1 "e", []) selfCall :=
    ⟨rfl, [], [], rfl, nofun⟩
  rw [terminates_iff_acc]
  intro h
  have hacc := h _ ⟨[], [], rfl, nofun⟩
  exact Recursion.not_transGen_of_acc (hacc.inv hstart)
    (Relation.TransGen.single hself)

end Rc2Compute.Environment
