import Rc2Compute.Files.Mirroring
import Rc2Compute.Files.Window
import Rc2Compute.Support.Dispatch

/-!
# The event loop and the echo of remote changes

The loop runs three callbacks of the manager: inotify events at priority 0,
database notifications and the ignore-off timer at priority 2.  Handling a
notification writes files, and the events of these writes are meant to reach
the manager while the ignore window is open.  They do, unless the timer runs
behind the notifications in one pass of the queue.
-/

namespace Rc2Compute.Files

open Transition

/-! ## The loop -/

inductive Callback where
  | inotify
  | notify
  | ignoreOff
deriving DecidableEq, Repr

def Callback.priority : Callback → ℕ
  | .inotify => 0
  | .notify => 2
  | .ignoreOff => 2

/-- The session, the notifications on the database connection, and the active
callbacks. -/
structure Loop where
  world : World
  queue : List String
  dispatch : Dispatch Callback

/-- What R commands and other sessions do at any time, a poll at which the
timer may have expired, and the three callbacks. -/
inductive LoopOp where
  | write (name : String) (data : Bytes)
  | remove (name : String)
  | commit (tables : Tables) (message : String)
  | poll (expired : Bool)
  | inotify (envs : List Env)
  | notify (env : Env) (envs : List Env)
  | ignoreOff

namespace Loop

/-- The callbacks a poll makes active. -/
def ready (s : Loop) (expired : Bool) : List Callback :=
  (if s.world.inotify.unread = [] then [] else [.inotify]) ++
    (if s.queue = [] then [] else [.notify]) ++
    if expired = true ∧ 0 < s.world.fm.ignoreOffTimers then [.ignoreOff]
    else []

def step (s : Loop) : LoopOp → Loop
  | .write name data =>
      { s with world := s.world.writeFile .other name data }
  | .remove name => { s with world := s.world.removeFile .other name }
  | .commit tables message =>
      { s with
        world := { s.world with db := { s.world.db with committed := tables } }
        queue := s.queue ++ [message] }
  | .poll expired =>
      { s with
        dispatch := s.dispatch.poll Callback.priority (s.ready expired) }
  | .inotify envs =>
      { s with
        world := (handleInotifyEvent (envs.zip s.world.inotify.unread)
          (s.world.readEvents envs.length)).2
        dispatch := s.dispatch.finish .inotify }
  | .notify env envs =>
      { world := (handleDBNotifications env (envs.zip s.queue) s.world).2
        queue := s.queue.drop envs.length
        dispatch := s.dispatch.finish .notify }
  | .ignoreOff =>
      { s with
        world := (handleIgnoreFSNotesOff s.world).2
        dispatch := s.dispatch.finish .ignoreOff }

/-- A poll comes when the running queue has run to its end, and a callback
runs when it is in that queue. -/
def Enabled (s : Loop) : LoopOp → Prop
  | .poll _ => s.dispatch.running = []
  | .inotify _ => .inotify ∈ s.dispatch.running
  | .notify _ _ => .notify ∈ s.dispatch.running
  | .ignoreOff => .ignoreOff ∈ s.dispatch.running
  | _ => True

instance (s : Loop) : (op : LoopOp) → Decidable (s.Enabled op)
  | .write _ _ => isTrue trivial
  | .remove _ => isTrue trivial
  | .commit _ _ => isTrue trivial
  | .poll _ => inferInstanceAs (Decidable (_ = _))
  | .inotify _ => inferInstanceAs (Decidable (_ ∈ _))
  | .notify _ _ => inferInstanceAs (Decidable (_ ∈ _))
  | .ignoreOff => inferInstanceAs (Decidable (_ ∈ _))

/-! ## Echoes -/

/-- An event of a write by `loadFiles`, other than those that are only
logged. -/
def Echo (event : InotifyEvent) : Prop :=
  event.writer = .loadFiles ∧
    ¬ (event.evtype = IN_OPEN ∨ event.evtype = IN_MODIFY)

instance (event : InotifyEvent) : Decidable (Echo event) :=
  inferInstanceAs (Decidable (_ ∧ _))

/-- Handling the event calls `insertDBFile` or `updateDBFile`. -/
def CallsDatabase (w : World) (event : InotifyEvent) : Prop :=
  (event.evtype = IN_CREATE ∧
    ¬ (event.mask &&& IN_ISDIR ≠ 0 ∨ event.name.toList.head? = some '.') ∧
    matchImage event.name = none ∧
    event.name ∉ w.fm.manuallyAddedFiles ∧
    (fileExistsWithName event.name w).1 = .returned false) ∨
  (event.evtype = IN_CLOSE_WRITE ∧
    w.fm.pendingImagesByWatchDesc[event.wd]? = none ∧
    ∃ r, w.fm.filesByWatchDesc[event.wd]? = some (some r))

/-- Events of writes by `loadFiles` call neither `insertDBFile` nor
`updateDBFile` and leave the database alone. -/
def NoEcho (s : Loop) : LoopOp → Prop
  | .inotify envs =>
      s.world.fm.ignoreFSNotifications = false →
        Along eventStep
          (fun w entry => entry.2.writer = .loadFiles →
            ¬ CallsDatabase w entry.2 ∧ (eventStep w entry).db = w.db)
          (windowOpened (s.world.readEvents envs.length))
          (envs.zip s.world.inotify.unread)
  | _ => True

/-- When the timer runs, no echo is unread, or notifications, which open the
window again, are still to be handled in the same pass. -/
def WindowHeld (s : Loop) : LoopOp → Prop
  | .ignoreOff =>
      (∀ event ∈ s.world.inotify.unread, ¬ Echo event) ∨
        .notify ∈ s.dispatch.running
  | _ => True

instance (s : Loop) : (op : LoopOp) → Decidable (s.WindowHeld op)
  | .write _ _ => isTrue trivial
  | .remove _ => isTrue trivial
  | .commit _ _ => isTrue trivial
  | .poll _ => isTrue trivial
  | .inotify _ => isTrue trivial
  | .notify _ _ => isTrue trivial
  | .ignoreOff => inferInstanceAs (Decidable ((∀ _ ∈ _, _) ∨ _ ∈ _))

/-- The invariant: the window is open, or no echo is unread, or the running
queue will open the window. -/
structure Sheltered (s : Loop) : Prop where
  uniform : s.dispatch.Uniform Callback.priority
  sheltered : s.world.fm.ignoreFSNotifications = true ∨
    (∀ event ∈ s.world.inotify.unread, ¬ Echo event) ∨
    .notify ∈ s.dispatch.running

/-! ## What the calls of an event are -/

/-- Looking a name up changes nothing. -/
theorem fileExistsWithName_state (fname : String) (w : World) :
    (fileExistsWithName fname w).2 = w :=
  ((fileExistsWithName_keeps fname : Act.Keeps (Eq (α := World)) _) w).symm

/-- A new file is inserted and watched. -/
theorem handleEvent_of_created {env : Env} {w : World}
    {event : InotifyEvent} (h : CallsDatabase w event)
    (htype : event.evtype = IN_CREATE) :
    handleEvent env event w =
      Act.tryCatch
        (do
          let newFileId ← insertDBFile env event.name
          if newFileId > 0 then
            watchFile env (← filesByIdIndex newFileId))
        (fun _ => pure ()) w := by
  rcases h with ⟨-, hvisible, himage, hmanual, hnew⟩ | ⟨hclose, -⟩
  · have hexists : fileExistsWithName event.name w =
        (.returned false, w) :=
      Prod.ext hnew (fileExistsWithName_state event.name w)
    have hcreate : handleCreate env event = (do
        let w ← Act.get
        if event.name ∈ w.fm.manuallyAddedFiles then
          pure ()
        else if ← fileExistsWithName event.name then
          pure ()
        else
          let newFileId ← insertDBFile env event.name
          if newFileId > 0 then
            watchFile env (← filesByIdIndex newFileId)) := by
      rw [handleCreate, if_neg hvisible, himage]
    rw [handleEvent, if_pos htype, Act.tryCatch_apply, hcreate,
      Act.bind_apply_returned (Act.get_apply w), if_neg hmanual,
      Act.bind_apply_returned hexists, if_neg (by decide),
      ← Act.tryCatch_apply]
  · rw [hclose] at htype
    exact absurd htype (by decide)

/-- The end of a write to a watched file updates the file. -/
theorem handleEvent_of_closed {env : Env} {w : World}
    {event : InotifyEvent} {r : ℕ}
    (htype : event.evtype = IN_CLOSE_WRITE)
    (himage : w.fm.pendingImagesByWatchDesc[event.wd]? = none)
    (hwd : w.fm.filesByWatchDesc[event.wd]? = some (some r)) :
    handleEvent env event w =
      Act.tryCatch (updateDBFile env (some r)) (fun _ => pure ()) w := by
  have hclose : handleCloseWrite env event w =
      (do
        let fobj ← filesByWatchDescIndex event.wd
        let _info ← load fobj
        updateDBFile env fobj : Prog Unit) w := by
    rw [handleCloseWrite, Act.bind_apply_returned (Act.get_apply w)]
    simp only [himage]
  rw [handleEvent, htype, if_neg (by decide), if_pos rfl, Act.tryCatch_apply,
    hclose, Act.bind_apply_returned (filesByWatchDescIndex_of_some hwd),
    Act.bind_apply_returned (load_some r w), ← Act.tryCatch_apply]

/-- The database is the same. -/
def SameDatabase (w w' : World) : Prop := w'.db = w.db

instance : Std.Refl SameDatabase where
  refl _ := rfl

instance : IsTrans World SameDatabase where
  trans _ _ _ hab hbc := Eq.trans hbc hab

/-- Events that are only logged. -/
theorem eventStep_of_logged {w : World} {entry : Env × InotifyEvent}
    (h : entry.2.evtype = IN_OPEN ∨ entry.2.evtype = IN_MODIFY) :
    ¬ CallsDatabase w entry.2 ∧ (eventStep w entry).db = w.db := by
  have hne : entry.2.evtype ≠ IN_CREATE ∧ entry.2.evtype ≠ IN_CLOSE_WRITE ∧
      entry.2.evtype ≠ IN_DELETE_SELF := by
    rcases h with h | h <;> rw [h] <;> decide
  refine ⟨?_, ?_⟩
  · rintro (⟨hcreate, -⟩ | ⟨hclose, -⟩)
    · exact hne.1 hcreate
    · exact hne.2.1 hclose
  · have hindex : Act.Keeps SameDatabase
        (filesByWatchDescIndex entry.2.wd) := by
      intro w
      rw [filesByWatchDescIndex]
      split
      · exact Std.Refl.refl w
      · exact rfl
    have hlogged : Act.Keeps SameDatabase (handleLogged entry.2) :=
      hindex.bind fun _ => (load_keeps _).bind fun _ => Act.Keeps.pure _
    have hevent : Act.Keeps SameDatabase (handleEvent entry.1 entry.2) := by
      rw [handleEvent, if_neg hne.1, if_neg hne.2.1, if_neg hne.2.2, if_pos h]
      exact hlogged.tryCatch fun _ => Act.Keeps.pure _
    exact hevent w

/-! ## Runs -/

/-- What R does to a file queues no echo. -/
theorem not_echo_of_other {event : InotifyEvent}
    (h : event.writer = .other) : ¬ Echo event := by
  rintro ⟨hwriter, -⟩
  rw [h] at hwriter
  cases hwriter

theorem writer_of_mem_fileEvents {k : Inotify} {writer : Writer}
    {name : String} {masks : List UInt32} {event : InotifyEvent}
    (h : event ∈ k.fileEvents writer name masks) : event.writer = writer := by
  obtain ⟨_, _, _, _, _, _, hwriter⟩ := mem_fileEvents.mp h
  exact hwriter

theorem writer_of_mem_rootEvents {k : Inotify} {writer : Writer}
    {name : String} {mask : UInt32} {event : InotifyEvent}
    (h : event ∈ k.rootEvents writer name mask) : event.writer = writer := by
  unfold Inotify.rootEvents at h
  split at h
  · rw [List.mem_singleton.mp h]
  · cases h

theorem mem_unread_writeFile {w : World} {writer : Writer} {name : String}
    {data : Bytes} {event : InotifyEvent}
    (h : event ∈ (w.writeFile writer name data).inotify.unread) :
    event ∈ w.inotify.unread ∨ event.writer = writer := by
  simp only [World.writeFile, List.mem_append] at h
  rcases h with (hold | hcreated) | hfile
  · exact Or.inl hold
  · split at hcreated
    · cases hcreated
    · exact Or.inr (writer_of_mem_rootEvents hcreated)
  · exact Or.inr (writer_of_mem_fileEvents hfile)

theorem mem_unread_removeFile {w : World} {writer : Writer} {name : String}
    {event : InotifyEvent}
    (h : event ∈ (w.removeFile writer name).inotify.unread) :
    event ∈ w.inotify.unread ∨ event.writer = writer := by
  unfold World.removeFile at h
  split at h
  · simp only [List.mem_append] at h
    rcases h with (hold | hfile) | hroot
    · exact Or.inl hold
    · exact Or.inr (writer_of_mem_fileEvents hfile)
    · exact Or.inr (writer_of_mem_rootEvents hroot)
  · exact Or.inl h

/-- A step that leaves the flag and the callbacks alone and queues no echo
keeps the session sheltered. -/
theorem Sheltered.of_unread {s s' : Loop} (h : Sheltered s)
    (hflag : s'.world.fm.ignoreFSNotifications =
      s.world.fm.ignoreFSNotifications)
    (hdispatch : s'.dispatch = s.dispatch)
    (hunread : ∀ event ∈ s'.world.inotify.unread,
      event ∈ s.world.inotify.unread ∨ ¬ Echo event) : Sheltered s' := by
  refine ⟨hdispatch ▸ h.uniform, ?_⟩
  rw [hflag, hdispatch]
  refine h.sheltered.imp_right (Or.imp_left fun hnone event hevent => ?_)
  rcases hunread event hevent with hold | hnew
  · exact hnone event hold
  · exact hnew

/-- Every kind of step keeps the session sheltered, as long as the timer does
not run behind the notifications. -/
theorem Sheltered.step {s : Loop} {op : LoopOp} (h : Sheltered s)
    (henabled : s.Enabled op) (hheld : s.WindowHeld op) :
    Sheltered (s.step op) := by
  cases op with
  | write name data =>
      refine h.of_unread rfl rfl fun event hevent => ?_
      exact (mem_unread_writeFile hevent).imp_right not_echo_of_other
  | remove name =>
      refine h.of_unread ?_ rfl fun event hevent => ?_
      · exact congrArg FileManager.ignoreFSNotifications
          (removeFile_fm s.world .other name)
      · exact (mem_unread_removeFile hevent).imp_right not_echo_of_other
  | commit tables message =>
      exact h.of_unread rfl rfl fun event hevent => Or.inl hevent
  | poll expired =>
      refine ⟨Dispatch.uniform_poll _ _ _, ?_⟩
      rcases h.sheltered with hopen | hnone | hnotify
      · exact Or.inl hopen
      · exact Or.inr (Or.inl hnone)
      · -- nothing runs when the loop polls
        have hidle : s.dispatch.running = [] := henabled
        rw [hidle] at hnotify
        cases hnotify
  | inotify envs =>
      exact ⟨h.uniform.finish _, Or.inl (handleInotifyEvent_open _ _)⟩
  | notify env envs =>
      exact ⟨h.uniform.finish _, Or.inl (handleDBNotifications_open _ _ _)⟩
  | ignoreOff =>
      refine ⟨h.uniform.finish _, Or.inr ?_⟩
      rcases hheld with hnone | hnotify
      · exact Or.inl hnone
      · exact Or.inr (Dispatch.mem_running_finish_of_ne hnotify (by decide))

/-- In a sheltered session the inotify callback, when it handles events at
all, finds no echo among them. -/
theorem Sheltered.noEcho {s : Loop} {op : LoopOp} (h : Sheltered s)
    (henabled : s.Enabled op) : s.NoEcho op := by
  cases op with
  | inotify envs =>
      intro hclosed
      have hnone : ∀ event ∈ s.world.inotify.unread, ¬ Echo event := by
        rcases h.sheltered with hopen | hnone | hnotify
        · rw [hclosed] at hopen
          cases hopen
        · exact hnone
        · have hsame := h.uniform _ henabled _ hnotify
          cases hsame
      refine along_of_mem (fun entry hentry w hwriter => ?_) _
      have hunread := (List.of_mem_zip hentry).2
      refine eventStep_of_logged ?_
      by_contra hother
      exact hnone _ hunread ⟨hwriter, hother⟩
  | _ => trivial

/-- In every run of the loop in which the timer never clears the flag while an
echo is unread and no notification callback is left to set it again, no event
of a write by `loadFiles` reaches the database. -/
theorem noEcho_of_windowHeld {s : Loop} {ops : List LoopOp}
    (h : Sheltered s) (henabled : Along Loop.step Enabled s ops)
    (hheld : Along Loop.step WindowHeld s ops) :
    Along Loop.step NoEcho s ops :=
  along_of_invariant (I := Sheltered)
    (fun _ _ h hg => h.step hg.1 hg.2) (fun _ _ h hg => h.noEcho hg.1) h
    (along_and.mpr ⟨henabled, hheld⟩)

/-! ## One file -/

/-- The session of the one file `a.R`, with nothing pending. -/
def oneFileLoop : Loop where
  world := Mirroring.oneFileWatched.world
  queue := []
  dispatch := Dispatch.idle

theorem oneFileLoop_sheltered : Sheltered oneFileLoop := by
  refine ⟨Dispatch.uniform_idle _, Or.inr (Or.inl fun event hevent => ?_)⟩
  have hunread : oneFileLoop.world.inotify.unread = [] := by decide
  rw [hunread] at hevent
  cases hevent

/-- `a.R` with new contents, as another session commits it. -/
def changedFile (version : ℤ) (data : Bytes) : Tables where
  rcfile := (∅ : Map ℤ FileRow).insert 7 ⟨version, 1, "a.R", data.length, 0⟩
  rcfiledata := (∅ : Map ℤ Bytes).insert 7 data
  rcworkspacedata := ∅
  sessionimage := ∅

/-- R rewrites the file and the session stores it, which opens the window.
Then another session commits, and the same poll finds its notification and
the expired timer. -/
def timerBehindNotification : List LoopOp :=
  let env := Env.succeeding 3 1
  [.write "a.R" [1], .poll false, .inotify [env, env, env],
    .commit (changedFile 3 [2]) "u7/1/a", .poll true, .notify env [env],
    .ignoreOff, .poll false, .inotify [env, env, env]]

/-- The echo of the remote change is stored as a new version. -/
theorem noEcho_fails_behind_notification :
    Sheltered oneFileLoop ∧
      Along Loop.step Enabled oneFileLoop timerBehindNotification ∧
      ¬ Along Loop.step NoEcho oneFileLoop timerBehindNotification := by
  refine ⟨oneFileLoop_sheltered, by decide, ?_⟩
  rintro ⟨-, -, -, -, -, -, -, -, hecho, -⟩
  obtain ⟨-, -, hclosed, -⟩ := hecho (by decide)
  exact (hclosed (by decide)).1
    (Or.inr ⟨by decide, by decide, 0, by decide⟩)

/-- The timer runs in a later pass than the notification. -/
theorem noEcho_timer_in_later_pass :
    Along Loop.step NoEcho oneFileLoop
      [.commit (changedFile 2 [1]) "u7/1/a", .poll false,
        .notify (Env.succeeding 3 1) [Env.succeeding 3 1], .poll true,
        .inotify [Env.succeeding 3 1, Env.succeeding 3 1,
          Env.succeeding 3 1], .poll true, .ignoreOff] :=
  noEcho_of_windowHeld oneFileLoop_sheltered (by decide) (by decide)

end Loop

end Rc2Compute.Files
