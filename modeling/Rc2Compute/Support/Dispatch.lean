import Mathlib.Data.List.MinMax
import Mathlib.Data.List.Basic

/-!
# A loop that runs callbacks by priority

A poll makes callbacks active.  The active callbacks of the best priority,
which is the lowest number, then run to the last one, in any order, before
the next poll.
-/

namespace Rc2Compute

/-- The callbacks of the queue that runs now, and the other active ones. -/
structure Dispatch (κ : Type) where
  running : List κ
  waiting : List κ
deriving DecidableEq, Repr

namespace Dispatch

variable {κ : Type} [DecidableEq κ] (priority : κ → ℕ)

/-- Nothing is active. -/
def idle : Dispatch κ := ⟨[], []⟩

/-- The active callbacks after those of `ready` have become active too. -/
def activate (d : Dispatch κ) (ready : List κ) : List κ :=
  d.waiting ++ ready.filter fun c => c ∉ d.waiting

/-- The best priority among callbacks. -/
def best (active : List κ) : ℕ :=
  ((active.map priority).min?).getD 0

/-- Make the callbacks of `ready` active and start the best queue. -/
def poll (d : Dispatch κ) (ready : List κ) : Dispatch κ where
  running := (d.activate ready).filter fun c =>
    priority c = best priority (d.activate ready)
  waiting := (d.activate ready).filter fun c =>
    priority c ≠ best priority (d.activate ready)

/-- A callback of the running queue has run. -/
def finish (d : Dispatch κ) (c : κ) : Dispatch κ :=
  { d with running := d.running.erase c }

/-- The callbacks that run together have one priority. -/
def Uniform (d : Dispatch κ) : Prop :=
  ∀ c ∈ d.running, ∀ c' ∈ d.running, priority c = priority c'

omit [DecidableEq κ] in
theorem uniform_idle : (idle : Dispatch κ).Uniform priority := by
  intro c hc
  cases hc

theorem uniform_poll (d : Dispatch κ) (ready : List κ) :
    (d.poll priority ready).Uniform priority := by
  intro c hc c' hc'
  simp only [poll, List.mem_filter, decide_eq_true_eq] at hc hc'
  rw [hc.2, hc'.2]

/-- What a poll starts is as urgent as anything that is ready. -/
theorem priority_le_of_mem_poll {d : Dispatch κ} {ready : List κ} {c c' : κ}
    (h : c ∈ (d.poll priority ready).running) (hready : c' ∈ ready) :
    priority c ≤ priority c' := by
  simp only [poll, List.mem_filter, decide_eq_true_eq] at h
  have hactive : c' ∈ d.activate ready := by
    rw [activate, List.mem_append, List.mem_filter]
    by_cases hwaiting : c' ∈ d.waiting
    · exact .inl hwaiting
    · exact .inr ⟨hready, decide_eq_true hwaiting⟩
  have hmem := List.mem_map_of_mem (f := priority) hactive
  rw [h.2, best]
  cases hmin : ((d.activate ready).map priority).min? with
  | none =>
      rw [List.min?_eq_none_iff] at hmin
      rw [hmin] at hmem
      cases hmem
  | some m => exact (List.min?_eq_some_iff.mp hmin).2 _ hmem

theorem Uniform.finish {priority : κ → ℕ} {d : Dispatch κ}
    (h : d.Uniform priority) (c : κ) : (d.finish c).Uniform priority :=
  fun a ha b hb => h a (List.mem_of_mem_erase ha) b (List.mem_of_mem_erase hb)

theorem mem_running_finish_of_ne {d : Dispatch κ} {c c' : κ}
    (h : c ∈ d.running) (hne : c ≠ c') : c ∈ (d.finish c').running :=
  (List.mem_erase_of_ne hne).mpr h

end Dispatch

end Rc2Compute
