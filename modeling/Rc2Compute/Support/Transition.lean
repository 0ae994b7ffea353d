import Rc2Compute.Support.Action
import Mathlib.Data.List.Basic
import Mathlib.Tactic.Tauto

/-!
# Runs of a transition system

A system takes one operation after another.  A run is the state after a list
of operations; a property of steps holds along a run when it holds of every
operation in the state it is taken in.
-/

namespace Rc2Compute.Transition

variable {σ α : Type} {step : σ → α → σ}

/-- The state after a list of operations. -/
def run (step : σ → α → σ) (s : σ) (ops : List α) : σ :=
  ops.foldl step s

/-- `P` holds of every operation in the state it is taken in. -/
def Along (step : σ → α → σ) (P : σ → α → Prop) : σ → List α → Prop
  | _, [] => True
  | s, a :: ops => P s a ∧ Along step P (step s a) ops

@[simp] theorem run_nil (s : σ) : run step s [] = s := rfl

@[simp] theorem run_cons (s : σ) (a : α) (ops : List α) :
    run step s (a :: ops) = run step (step s a) ops := rfl

@[simp] theorem along_nil {P : σ → α → Prop} (s : σ) :
    Along step P s [] := trivial

@[simp] theorem along_cons {P : σ → α → Prop} (s : σ) (a : α)
    (ops : List α) :
    Along step P s (a :: ops) ↔ P s a ∧ Along step P (step s a) ops :=
  Iff.rfl

instance decidableAlong {P : σ → α → Prop} [∀ s a, Decidable (P s a)] :
    (s : σ) → (ops : List α) → Decidable (Along step P s ops)
  | _, [] => isTrue trivial
  | s, a :: ops =>
      have := decidableAlong (P := P) (step s a) ops
      inferInstanceAs (Decidable (P s a ∧ Along step P (step s a) ops))

theorem along_and {P Q : σ → α → Prop} {s : σ} {ops : List α} :
    Along step (fun s a => P s a ∧ Q s a) s ops ↔
      Along step P s ops ∧ Along step Q s ops := by
  induction ops generalizing s with
  | nil => simp
  | cons a ops ih =>
      simp only [along_cons, ih]
      tauto

theorem run_append (s : σ) (ops more : List α) :
    run step s (ops ++ more) = run step (run step s ops) more :=
  List.foldl_append

/-- A property of steps holds along a run and what follows it. -/
theorem Along.append {P : σ → α → Prop} {s : σ} {ops more : List α}
    (h : Along step P s ops) (hmore : Along step P (run step s ops) more) :
    Along step P s (ops ++ more) := by
  induction ops generalizing s with
  | nil => exact hmore
  | cons a ops ih => exact ⟨h.1, ih h.2 hmore⟩

theorem Along.mono {P Q : σ → α → Prop} (hPQ : ∀ s a, P s a → Q s a)
    {s : σ} {ops : List α} (h : Along step P s ops) :
    Along step Q s ops := by
  induction ops generalizing s with
  | nil => trivial
  | cons a ops ih => exact ⟨hPQ s a h.1, ih h.2⟩

theorem along_of_mem {P : σ → α → Prop} {ops : List α}
    (h : ∀ a ∈ ops, ∀ s, P s a) (s : σ) : Along step P s ops := by
  induction ops generalizing s with
  | nil => trivial
  | cons a ops ih =>
      exact ⟨h a (by simp) s, ih (fun b hb => h b (by simp [hb])) _⟩

/-- What does not depend on the state holds of every operation. -/
theorem forall_mem_of_along {P : α → Prop} {s : σ} {ops : List α}
    (h : Along step (fun _ a => P a) s ops) : ∀ a ∈ ops, P a := by
  induction ops generalizing s with
  | nil => exact fun a ha => absurd ha List.not_mem_nil
  | cons b ops ih =>
      intro a ha
      rcases List.mem_cons.mp ha with rfl | ha
      · exact h.1
      · exact ih h.2 a ha

/-- An invariant that every guarded step keeps holds at the end of a guarded
run. -/
theorem run_invariant {I : σ → Prop} {guard : σ → α → Prop}
    (hstep : ∀ s a, I s → guard s a → I (step s a))
    {s : σ} {ops : List α} (hs : I s) (h : Along step guard s ops) :
    I (run step s ops) := by
  induction ops generalizing s with
  | nil => exact hs
  | cons a ops ih => exact ih (hstep s a hs h.1) h.2

/-- What every guarded step from the invariant satisfies holds along a
guarded run. -/
theorem along_of_invariant {I : σ → Prop} {guard P : σ → α → Prop}
    (hstep : ∀ s a, I s → guard s a → I (step s a))
    (hP : ∀ s a, I s → guard s a → P s a)
    {s : σ} {ops : List α} (hs : I s) (h : Along step guard s ops) :
    Along step P s ops := by
  induction ops generalizing s with
  | nil => trivial
  | cons a ops ih => exact ⟨hP s a hs h.1, ih (hstep s a hs h.1) h.2⟩

/-- When each guarded step of one system is some guarded steps of another,
perhaps none, each guarded run is a guarded run of the other. -/
theorem run_simulation {τ β : Type} {step' : τ → β → τ} {f : σ → τ}
    {I : σ → Prop} {guard : σ → α → Prop} {guard' : τ → β → Prop}
    (hstep : ∀ s a, I s → guard s a → I (step s a) ∧
      ∃ bs, Along step' guard' (f s) bs ∧ f (step s a) = run step' (f s) bs)
    {s : σ} {ops : List α} (hs : I s) (h : Along step guard s ops) :
    I (run step s ops) ∧ ∃ bs, Along step' guard' (f s) bs ∧
      f (run step s ops) = run step' (f s) bs := by
  induction ops generalizing s with
  | nil => exact ⟨hs, [], trivial, rfl⟩
  | cons a ops ih =>
      obtain ⟨hI, bs, hbs, hf⟩ := hstep s a hs h.1
      obtain ⟨hfinal, bs', hbs', hf'⟩ := ih hI h.2
      rw [hf] at hbs' hf'
      refine ⟨hfinal, bs ++ bs', hbs.append hbs', ?_⟩
      rw [run_append]
      exact hf'

/-- What guarded steps can bring about for one index, undoing it for no other,
they can bring about for all the indices of a list. -/
theorem exists_run_forall {ι : Type} {I : σ → Prop} {P : ι → σ → Prop}
    {guard : σ → α → Prop}
    (hone : ∀ i s, I s → ∃ ops, Along step guard s ops ∧
      I (run step s ops) ∧ P i (run step s ops) ∧
      ∀ j, P j s → P j (run step s ops))
    (is : List ι) {s : σ} (hs : I s) :
    ∃ ops, Along step guard s ops ∧ I (run step s ops) ∧
      (∀ i ∈ is, P i (run step s ops)) ∧
      ∀ j, P j s → P j (run step s ops) := by
  induction is generalizing s with
  | nil => exact ⟨[], trivial, hs, by simp, fun _ h => h⟩
  | cons i is ih =>
      obtain ⟨ops, hops, hI, hi, hkept⟩ := hone i s hs
      obtain ⟨more, hmore, hI', hrest, hkept'⟩ := ih hI
      refine ⟨ops ++ more, hops.append hmore, ?_⟩
      rw [run_append]
      refine ⟨hI', fun j hj => ?_, fun j hj => hkept' j (hkept j hj)⟩
      rcases List.mem_cons.mp hj with rfl | hj
      · exact hkept' j hi
      · exact hrest j hj

/-- However a loop ends, it ends in the invariant its guarded bodies keep. -/
theorem forEach_invariant {ε : Type} {f : α → Act σ ε Unit} {I : σ → Prop}
    {guard : σ → α → Prop}
    (hstep : ∀ s a, I s → guard s a → I (f a s).2) {s : σ} {as : List α}
    (hs : I s) (h : Along (fun s a => (f a s).2) guard s as) :
    I (Act.forEach as f s).2 := by
  induction as generalizing s with
  | nil => exact hs
  | cons a as ih =>
      have hfirst := hstep s a hs h.1
      have hrest : Along (fun s a => (f a s).2) guard (f a s).2 as := h.2
      rw [Act.forEach_cons, Act.bind_apply]
      match hfa : f a s with
      | (.returned _, s') =>
          rw [hfa] at hfirst hrest
          exact ih hfirst hrest
      | (.threw _, s') =>
          rw [hfa] at hfirst
          exact hfirst
      | (.undefined, s') =>
          rw [hfa] at hfirst
          exact hfirst

/-- A loop whose bodies all return is a run of its bodies. -/
theorem forEach_eq_run {ε : Type} {f : α → Act σ ε Unit} {I : σ → Prop}
    {guard : σ → α → Prop}
    (hstep : ∀ s a, I s → guard s a →
      Act.wp (f a) (fun _ => I) (fun _ _ => False) s)
    {s : σ} {as : List α} (hs : I s)
    (h : Along (fun s a => (f a s).2) guard s as) :
    Act.forEach as f s =
      (.returned (), run (fun s a => (f a s).2) s as) := by
  induction as generalizing s with
  | nil => rfl
  | cons a as ih =>
      obtain ⟨s', hs', hI⟩ := (hstep s a hs h.1).ends
      have hrest := h.2
      rw [Act.forEach_cons, Act.bind_apply_returned hs', run_cons]
      dsimp only at hrest ⊢
      rw [hs'] at hrest ⊢
      exact ih hI hrest

end Rc2Compute.Transition
