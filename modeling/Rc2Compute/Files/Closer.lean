import Rc2Compute.Files.Window
import Rc2Compute.Support.Latch

/-!
# The event that closes the ignore window

`ignoreFSNotifications` is called from four places, some of which call each
other, and each time it opens the window it schedules one event that closes
it.  A run below consists of these callers, of direct calls, of the firings of
any scheduled event, and of everything else the session does.  The window and
its events then form a latch, and every operation is a few steps of it.
-/

namespace Rc2Compute.Files

open Transition

/-! ## Runs -/

/-- A session, how often its ignore window has been opened, and the window
each event that has not fired was scheduled for. -/
structure Ignoring where
  world : World
  windows : ℕ
  scheduled : List ℕ

/-- What calls `ignoreFSNotifications`, directly or not, the firing of the
scheduled event at position `i`, and any other code.  Other code reaches any
world, but neither the flag nor the events. -/
inductive WindowOp where
  | handleInotifyEvent (batch : List (Env × InotifyEvent))
  | handleDBNotifications (env : Env) (messages : List (Env × String))
  | processDBNotification (env : Env) (message : String)
  | insertImage (env : Env) (fname imgNumStr : String)
  | cleanupImageWatch (envs : ℤ → Env)
  | ignoreFSNotifications
  | fire (i : ℕ)
  | other (w : World)

namespace Ignoring

/-- A new session, which has never ignored anything. -/
def start (workingDir : String) (wspaceId sessionRecId : ℤ)
    (db : Tables) : Ignoring :=
  ⟨World.initial workingDir wspaceId sessionRecId db, 0, []⟩

/-- The world `w` with the window of `s`. -/
def elsewhere (s : Ignoring) (w : World) : World :=
  { w with fm :=
    { w.fm with
      ignoreFSNotifications := s.world.fm.ignoreFSNotifications
      ignoreOffTimers := s.world.fm.ignoreOffTimers } }

/-- The world after code that schedules events and fires none.  It opens a
window when it finds the flag clear and leaves it set, and what it schedules
is for the window that is open then. -/
def proceed (s : Ignoring) (w : World) : Ignoring :=
  let windows :=
    if ¬ s.world.fm.ignoreFSNotifications ∧ w.fm.ignoreFSNotifications then
      s.windows + 1
    else s.windows
  { world := w
    windows := windows
    scheduled := s.scheduled ++ List.replicate
      (w.fm.ignoreOffTimers - s.world.fm.ignoreOffTimers) windows }

/-- An event fires once. -/
def fire (s : Ignoring) (i : ℕ) : Ignoring :=
  if i < s.scheduled.length then
    { s with
      world := (handleIgnoreFSNotesOff s.world).2
      scheduled := s.scheduled.eraseIdx i }
  else s

def step (s : Ignoring) : WindowOp → Ignoring
  | .handleInotifyEvent batch =>
      s.proceed (Files.handleInotifyEvent batch s.world).2
  | .handleDBNotifications env messages =>
      s.proceed (Files.handleDBNotifications env messages s.world).2
  | .processDBNotification env message =>
      s.proceed (Files.processDBNotification env message s.world).2
  | .insertImage env fname imgNumStr =>
      s.proceed (Files.insertImage env fname imgNumStr s.world).2
  | .cleanupImageWatch envs =>
      s.proceed (Files.cleanupImageWatch envs s.world).2
  | .ignoreFSNotifications => s.proceed (Files.ignoreFSNotifications s.world).2
  | .fire i => s.fire i
  | .other w => s.proceed (s.elsewhere w)

/-- The firing of an event closes the window the event was scheduled for. -/
def ClosesOwn (s : Ignoring) : WindowOp → Prop
  | .fire i => ∀ window, s.scheduled[i]? = some window →
      s.world.fm.ignoreFSNotifications = true ∧ window = s.windows
  | _ => True

end Ignoring

/-! ## The other caller -/

theorem cleanupImageWatch_mayOpen (envs : ℤ → Env) :
    Act.Keeps MayOpen (cleanupImageWatch envs) := by
  have hsize : ∀ env fname, Act.Keeps MayOpen (fileSize env fname) := by
    intro env fname
    refine Act.Keeps.get.bind fun w => ?_
    split
    · exact Act.Keeps.pure _
    · exact Act.Keeps.throw _
  refine Act.Keeps.get.bind fun w => ?_
  refine Act.Keeps.bind (Act.Keeps.forEach _ fun _ => ?_)
    fun _ => Act.Keeps.modify fun _ => Or.inl rfl
  exact (hsize _ _).bind fun _ => (insertImage_mayOpen _ _ _).bind fun _ =>
    inotify_rm_watch_mayOpen _

/-! ## The window as a latch -/

namespace Ignoring

def latch (s : Ignoring) : Latch :=
  ⟨s.world.fm.ignoreFSNotifications, s.windows, s.scheduled⟩

/-- The manager counts the scheduled events. -/
def Counted (s : Ignoring) : Prop :=
  s.world.fm.ignoreOffTimers = s.scheduled.length

/-- The window stays as it is, and so does the latch. -/
theorem latch_proceed_of_same {s : Ignoring} {w : World}
    (h : w.window = s.world.window) : (s.proceed w).latch = s.latch := by
  have hflag : w.fm.ignoreFSNotifications = s.world.fm.ignoreFSNotifications :=
    congrArg Prod.fst h
  have htimers : w.fm.ignoreOffTimers = s.world.fm.ignoreOffTimers :=
    congrArg Prod.snd h
  simp [latch, proceed, hflag, htimers]

theorem latch_proceed_of_opened {s : Ignoring} {w : World}
    (hclosed : s.world.fm.ignoreFSNotifications = false)
    (h : w.window = (true, s.world.fm.ignoreOffTimers + 1)) :
    (s.proceed w).latch = s.latch.activate := by
  have hflag : w.fm.ignoreFSNotifications = true := congrArg Prod.fst h
  have htimers : w.fm.ignoreOffTimers = s.world.fm.ignoreOffTimers + 1 :=
    congrArg Prod.snd h
  simp [latch, proceed, Latch.activate, hclosed, hflag, htimers]

/-- Code that may open the window is at most one opening of the latch. -/
theorem latch_proceed {s : Ignoring} {w : World} (h : MayOpen s.world w) :
    (s.proceed w).latch = s.latch ∨
      (s.proceed w).latch = s.latch.activate := by
  rcases h with h | h
  · exact Or.inl (latch_proceed_of_same h)
  · rw [window_windowOpened] at h
    by_cases hopen : s.world.fm.ignoreFSNotifications = true
    · rw [if_pos hopen] at h
      exact Or.inl (latch_proceed_of_same h)
    · rw [if_neg hopen] at h
      exact Or.inr (latch_proceed_of_opened (Bool.eq_false_iff.mpr hopen) h)

theorem latch_fire (s : Ignoring) (i : ℕ) :
    (s.fire i).latch = s.latch.close i := by
  by_cases hi : i < s.scheduled.length
  · have hlatch : i < s.latch.closers.length := hi
    rw [fire, Latch.close, if_pos hi, if_pos hlatch]
    rfl
  · have hlatch : ¬ i < s.latch.closers.length := hi
    rw [fire, Latch.close, if_neg hi, if_neg hlatch]

/-- Every operation but a firing proceeds to a world whose window is as it
was or has been opened. -/
theorem step_cases (s : Ignoring) (op : WindowOp) :
    (∃ i, op = .fire i) ∨
      ∃ w, s.step op = s.proceed w ∧ MayOpen s.world w := by
  cases op with
  | handleInotifyEvent batch =>
      exact Or.inr ⟨_, rfl, Or.inr (window_handleInotifyEvent batch s.world)⟩
  | handleDBNotifications env messages =>
      exact Or.inr
        ⟨_, rfl, Or.inr (window_handleDBNotifications env messages s.world)⟩
  | processDBNotification env message =>
      exact Or.inr ⟨_, rfl, processDBNotification_mayOpen env message s.world⟩
  | insertImage env fname imgNumStr =>
      exact Or.inr ⟨_, rfl, insertImage_mayOpen env fname imgNumStr s.world⟩
  | cleanupImageWatch envs =>
      exact Or.inr ⟨_, rfl, cleanupImageWatch_mayOpen envs s.world⟩
  | ignoreFSNotifications =>
      exact Or.inr ⟨_, rfl, ignoreFSNotifications_mayOpen s.world⟩
  | fire i => exact Or.inl ⟨i, rfl⟩
  | other w => exact Or.inr ⟨_, rfl, Or.inl rfl⟩

/-- An operation is at most one step of the latch. -/
theorem latch_step (s : Ignoring) (op : WindowOp) :
    ∃ steps, (s.step op).latch = run Latch.step s.latch steps := by
  rcases s.step_cases op with ⟨i, rfl⟩ | ⟨w, hstep, hopen⟩
  · exact ⟨[.close i], s.latch_fire i⟩
  · rw [hstep]
    rcases latch_proceed hopen with hsame | hopened
    · exact ⟨[], hsame⟩
    · exact ⟨[.activate], hopened⟩

/-- The count rises and falls with the events. -/
theorem Counted.step {s : Ignoring} (h : s.Counted) (op : WindowOp) :
    (s.step op).Counted := by
  rcases s.step_cases op with ⟨i, rfl⟩ | ⟨w, hstep, hopen⟩
  · rw [Ignoring.step, fire]
    split
    next hi =>
      rw [Counted, List.length_eraseIdx_of_lt hi, ← h]
      rfl
    next => exact h
  · rw [hstep, Counted, proceed, List.length_append, List.length_replicate,
      ← h]
    exact (Nat.add_sub_of_le hopen.timers_le).symm

/-- What holds in every state of a run. -/
structure Guarded (s : Ignoring) : Prop where
  counted : s.Counted
  oneCloser : s.latch.OneCloser

theorem Guarded.step {s : Ignoring} (h : s.Guarded) (op : WindowOp) :
    (s.step op).Guarded := by
  refine ⟨h.counted.step op, ?_⟩
  obtain ⟨steps, hlatch⟩ := s.latch_step op
  rw [hlatch]
  exact h.oneCloser.run steps

theorem guarded_start (workingDir : String) (wspaceId sessionRecId : ℤ)
    (db : Tables) : (start workingDir wspaceId sessionRecId db).Guarded :=
  ⟨rfl, Latch.oneCloser_closed⟩

theorem Guarded.closesOwn {s : Ignoring} (h : s.Guarded) (op : WindowOp) :
    s.ClosesOwn op := by
  cases op with
  | fire i => exact fun window hwindow => h.oneCloser.present hwindow
  | _ => trivial

/-- In every state a session reaches, one event is scheduled when the flag is
set, for the window that is open, and none when it is clear; and an event that
fires closes the window it was scheduled for. -/
theorem ignore_window_has_one_closer (workingDir : String)
    (wspaceId sessionRecId : ℤ) (db : Tables) (ops : List WindowOp) :
    let s₀ := start workingDir wspaceId sessionRecId db
    let s := run step s₀ ops
    s.world.fm.ignoreOffTimers =
        (if s.world.fm.ignoreFSNotifications then 1 else 0) ∧
      s.scheduled =
        (if s.world.fm.ignoreFSNotifications then [s.windows] else []) ∧
      Along step ClosesOwn s₀ ops := by
  intro s₀ s
  have hstart : s₀.Guarded := guarded_start ..
  have halways : Along step (fun _ _ => True) s₀ ops :=
    along_of_mem (fun _ _ _ => trivial) s₀
  have hs : s.Guarded :=
    run_invariant (fun _ op h _ => h.step op) hstart halways
  refine ⟨?_, hs.oneCloser, ?_⟩
  · rw [hs.counted]
    exact hs.oneCloser.length
  · exact along_of_invariant (fun _ op h _ => h.step op)
      (fun _ op h _ => h.closesOwn op) hstart halways

end Ignoring

end Rc2Compute.Files
