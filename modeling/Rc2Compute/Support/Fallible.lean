import Mathlib.Data.List.Basic

/-!
# Computations that may fail

Two rules for `Except`: what a computation yields, with a postcondition for
its value and one for its failure, and when two computations agree up to a
relation between their values.  Both go through a sequence step by step.
-/

namespace Rc2Compute

variable {ε α β α' β' : Type}

/-- A value satisfies the first condition, a failure the second. -/
def Yields (good : α → Prop) (bad : ε → Prop) : Except ε α → Prop
  | .ok a => good a
  | .error e => bad e

theorem Yields.bind {good : α → Prop} {good' : α' → Prop} {bad : ε → Prop}
    {x : Except ε α} {f : α → Except ε α'} (h : Yields good bad x)
    (hnext : ∀ a, good a → Yields good' bad (f a)) :
    Yields good' bad (x >>= f) := by
  cases x with
  | ok a => exact hnext a h
  | error e => exact h

theorem Yields.imp {good good' : α → Prop} {bad bad' : ε → Prop}
    {x : Except ε α} (h : Yields good bad x) (hgood : ∀ a, good a → good' a)
    (hbad : ∀ e, bad e → bad' e) : Yields good' bad' x := by
  cases x with
  | ok a => exact hgood a h
  | error e => exact hbad e h

theorem Yields.map {good : α' → Prop} {bad : ε → Prop} {x : Except ε α}
    {f : α → α'} (h : Yields (fun a => good (f a)) bad x) :
    Yields good bad (x.map f) := by
  cases x with
  | ok a => exact h
  | error e => exact h

/-- Two results that are the same failure, or values in a relation. -/
inductive Lifts (r : α → β → Prop) : Except ε α → Except ε β → Prop where
  | ok {a : α} {b : β} (h : r a b) : Lifts r (.ok a) (.ok b)
  | error (e : ε) : Lifts r (.error e) (.error e)

theorem Lifts.eq {x y : Except ε α} (h : Lifts (· = ·) x y) : x = y := by
  cases h with
  | ok hab => rw [hab]
  | error e => rfl

theorem Lifts.bind {r : α → β → Prop} {r' : α' → β' → Prop}
    {x : Except ε α} {y : Except ε β} {f : α → Except ε α'}
    {g : β → Except ε β'} (h : Lifts r x y)
    (hnext : ∀ a b, r a b → Lifts r' (f a) (g b)) :
    Lifts r' (x >>= f) (y >>= g) := by
  cases h with
  | ok hab => exact hnext _ _ hab
  | error e => exact .error e

/-- A step both computations share. -/
theorem Lifts.seq {r' : α' → β' → Prop} (x : Except ε α)
    {f : α → Except ε α'} {g : α → Except ε β'}
    (hnext : ∀ a, Lifts r' (f a) (g a)) :
    Lifts r' (x >>= f) (x >>= g) := by
  cases x with
  | ok a => exact hnext a
  | error e => exact .error e

end Rc2Compute
