import Rc2Compute.Support.Transition

/-!
# Latches that are closed from outside

Opening a latch schedules a closer, which closes it at any later time.  Each
period in which the latch is open has a number, and a closer carries the
number of the period it was scheduled in.  Opening an open latch does nothing,
and this is what keeps an old closer from ending a new period.
-/

namespace Rc2Compute

open Transition

/-- A latch, the number of its last period, and the periods of the closers
that have not run. -/
structure Latch where
  isOpen : Bool
  period : ℕ
  closers : List ℕ
deriving DecidableEq, Repr

namespace Latch

/-- Closed, and never open before. -/
def closed : Latch := ⟨false, 0, []⟩

/-- Open the latch, unless it is open. -/
def activate (l : Latch) : Latch :=
  if l.isOpen then l
  else ⟨true, l.period + 1, l.closers ++ [l.period + 1]⟩

/-- The closer at position `i` runs; without one, nothing happens. -/
def close (l : Latch) (i : ℕ) : Latch :=
  if i < l.closers.length then ⟨false, l.period, l.closers.eraseIdx i⟩ else l

/-- An open latch has one closer, of the period it is in, and a closed one has
none. -/
def OneCloser (l : Latch) : Prop :=
  l.closers = if l.isOpen then [l.period] else []

inductive Op where
  | activate
  | close (i : ℕ)
deriving DecidableEq, Repr

def step (l : Latch) : Op → Latch
  | .activate => l.activate
  | .close i => l.close i

theorem oneCloser_closed : closed.OneCloser := rfl

theorem OneCloser.activate {l : Latch} (h : l.OneCloser) :
    l.activate.OneCloser := by
  rw [Latch.activate]
  split
  next => exact h
  next hclosed =>
    rw [OneCloser, if_neg hclosed] at h
    rw [OneCloser, h]
    rfl

/-- A closer that is there has been scheduled in the present period, and the
latch is open. -/
theorem OneCloser.present {l : Latch} (h : l.OneCloser) {i p : ℕ}
    (hp : l.closers[i]? = some p) : l.isOpen = true ∧ p = l.period := by
  rw [OneCloser] at h
  cases hopen : l.isOpen with
  | false =>
      rw [h, hopen, if_neg Bool.false_ne_true] at hp
      cases hp
  | true =>
      rw [h, hopen, if_pos rfl] at hp
      have hmem := List.mem_of_getElem? hp
      exact ⟨rfl, List.mem_singleton.mp hmem⟩

theorem OneCloser.length {l : Latch} (h : l.OneCloser) :
    l.closers.length = if l.isOpen then 1 else 0 := by
  rw [h]
  split
  · rfl
  · rfl

theorem OneCloser.close {l : Latch} (h : l.OneCloser) (i : ℕ) :
    (l.close i).OneCloser := by
  rw [Latch.close]
  split
  next hi =>
    have hone : l.closers.length ≤ 1 := by
      rw [h.length]
      split
      · exact Nat.le_refl 1
      · exact Nat.zero_le 1
    have hgone : (l.closers.eraseIdx i).length = 0 := by
      rw [List.length_eraseIdx_of_lt hi]
      omega
    exact List.length_eq_zero_iff.mp hgone
  next => exact h

theorem OneCloser.step {l : Latch} (h : l.OneCloser) (op : Op) :
    (l.step op).OneCloser := by
  cases op with
  | activate => exact h.activate
  | close i => exact h.close i

/-- Every run keeps the latch and its closers matched. -/
theorem OneCloser.run {l : Latch} (h : l.OneCloser) (ops : List Op) :
    (Transition.run Latch.step l ops).OneCloser := by
  induction ops generalizing l with
  | nil => exact h
  | cons op ops ih => exact ih (h.step op)

end Latch

end Rc2Compute
