import Rc2Compute.Files.EventLoop
import Rc2Compute.Files.Settling

/-!
# Local writes under the event loop

The loop hands over events and notifications in the order their priorities
give.  A run of the loop is a run of `Mirroring`; and when R rewrites files
only while the ignore window is closed and no notification is about to open
it, the order of the loop is such that no write is lost.
-/

namespace Rc2Compute.Files

open Transition
open Mirroring (Agrees Cached Written Known InOrder SameFiles Tracking)

/-! ## The events of a notification -/

namespace Mirroring

variable {w : World} {id : ℤ} {r : ℕ}

/-- Loading a file again queues events on this file alone. -/
theorem InOrder.written_refreshed {row : FetchedFile} (h : InOrder w)
    (hr : Cached w id r) (hname : row.name = (w.fm.objects r).path) {k : ℤ}
    (hk : Written (w.refreshed r row) k
      (w.refreshed r row).inotify.unread) :
    Written w k w.inotify.unread ∨ k = id := by
  have hs : SameFiles w (w.refreshed r row) := refreshed_sameFiles w r row
  have hdisk : w.disk[row.name]? ≠ none := by
    rw [hname]
    exact (h.onDisk id r hr).exists
  have hunread : (w.refreshed r row).inotify.unread =
      w.inotify.unread ++ w.inotify.fileEvents .loadFiles row.name
        [IN_OPEN, IN_MODIFY, IN_CLOSE_WRITE] :=
    writeFile_unread (w := w.setObject r _) hdisk .loadFiles row.bindata
  rw [Written.of_sameFiles hs] at hk
  obtain ⟨event, hmem, hmask, r', hr', hwd⟩ := hk
  rw [hunread, List.mem_append] at hmem
  rcases hmem with hold | hnew
  · exact .inl ⟨event, hold, hmask, r', hr', hwd⟩
  · obtain ⟨watch, hwatch, hpath, -⟩ := mem_fileEvents.mp hnew
    have hwatched := h.laid.watched k r' hr'
    rw [hwd, hwatch, Option.some.injEq] at hwatched
    have hsame : (w.fm.objects r').path = (w.fm.objects r).path := by
      rw [← hname, ← hpath, hwatched]
    exact .inr (h.laid.path k r' id r hr' hr hsame)

theorem processUpdate_written {env : Env} (henv : env.Works)
    (h : InOrder w) :
    Act.wp (processUpdate env id)
      (fun _ w' => ∀ k, Written w' k w'.inotify.unread →
        Written w k w.inotify.unread ∨ k = id)
      (fun _ _ => False) w := by
  cases hid : w.fm.filesById[id]? with
  | none =>
      have hcontains : ¬ w.fm.filesById.contains id = true := by
        rw [Std.TreeMap.contains_eq_isSome_getElem?, hid]
        decide
      have hrun : processUpdate env id w = (.returned (), w) := by
        rw [processUpdate, Act.bind_apply_returned (Act.get_apply w),
          if_neg hcontains]
        rfl
      exact Act.wp_of_apply hrun fun k hk => .inl hk
  | some ptr =>
      obtain ⟨r, rfl, -, hpos⟩ := h.laid.file id ptr hid
      obtain ⟨row, hrow, hname, hfits, -⟩ := h.inTable id r hid
      have hs := sameFiles_windowOpened w
      refine Act.wp_of_apply
        (processUpdate_of_cached henv.toSucceeds hid hrow hfits hpos)
        fun k hk => ?_
      have hbefore := h.windowOpened.written_refreshed
        ((Cached.of_sameFiles hs).mpr hid) (by rw [hs.path, hname]) hk
      rwa [Written.of_sameFiles hs, windowOpened_inotify] at hbefore

/-- A batch of notifications queues ends of writes only of files that agree
behind it. -/
theorem forEach_processDBNotification_written {batch : List (Env × String)}
    (h : InOrder w)
    (hbatch : ∀ entry ∈ batch, entry.1.Works ∧
      ∃ id, parseNotification w.fm.wspaceId entry.2 = some ('u', id)) :
    Act.wp (Act.forEach batch fun entry =>
        processDBNotification entry.1 entry.2)
      (fun _ w' => InOrder w' ∧ SameFiles w w' ∧
        ∀ k, Written w' k w'.inotify.unread →
          Written w k w.inotify.unread ∨ Agrees w' k)
      (fun _ _ => False) w := by
  refine Act.wp_forEach (I := fun w' => InOrder w' ∧ SameFiles w w' ∧
    ∀ k, Written w' k w'.inotify.unread →
      Written w k w.inotify.unread ∨ Agrees w' k) ?_
    ⟨h, SameFiles.refl w, fun _ => .inl⟩
  rintro ⟨env, message⟩ hentry w₁ ⟨h₁, hs₁, hwritten₁⟩
  obtain ⟨henv, id, hparse⟩ := hbatch _ hentry
  rw [processDBNotification, Act.wp_bind, Act.wp_get]
  beta_reduce
  rw [hs₁.wspaceId, hparse]
  simp only [Act.wp_tryCatch]
  rw [if_neg (by decide), if_neg (by decide)]
  refine ((processUpdate_notified henv h₁).and
    (processUpdate_written henv h₁)).mono ?_ fun _ _ h => h.1.elim
  rintro _ w₂ ⟨⟨⟨h₂, hs₂, -⟩, hagrees⟩, hwritten₂⟩
  refine ⟨h₂, hs₁.trans hs₂, fun k hk => ?_⟩
  rcases hwritten₂ k hk with hbefore | hsame
  · exact (hwritten₁ k hbefore).imp_right fun h => hagrees k (.inl h)
  · exact .inr (hagrees k (.inr hsame))

theorem handleDBNotifications_written {env : Env}
    {batch : List (Env × String)} (henv : env.Works) (h : InOrder w)
    (hbatch : ∀ entry ∈ batch, entry.1.Works ∧
      ∃ id, parseNotification w.fm.wspaceId entry.2 = some ('u', id)) :
    Act.wp (handleDBNotifications env batch)
      (fun _ w' => ∀ k, Written w' k w'.inotify.unread →
        Written w k w.inotify.unread ∨ Agrees w' k)
      (fun _ _ => False) w := by
  have hs := sameFiles_windowOpened w
  have hlistens : (windowOpened w).fm.ignoreDBNotifications = false := by
    rw [hs.deaf, h.laid.listens]
  rw [handleDBNotifications, Act.wp_bind]
  refine Act.wp_of_apply (ignoreFSNotifications_apply w) ?_
  rw [Act.wp_bind, henv.calls .consumeInput]
  refine Act.wp_of_apply (Act.throwIf_apply_of_not (by decide) _ _) ?_
  rw [Act.wp_bind, Act.wp_get]
  beta_reduce
  simp only [hlistens, Bool.false_eq_true, if_false]
  have hloop := forEach_processDBNotification_written h.windowOpened
    fun entry hentry => by
      rw [hs.wspaceId]
      exact hbatch entry hentry
  refine hloop.mono ?_ fun _ _ h => h
  rintro _ w' ⟨-, -, hwritten⟩ k hk
  have hbefore := hwritten k hk
  rwa [Written.of_sameFiles hs, windowOpened_inotify] at hbefore

end Mirroring

/-! ## The loop and the files -/

namespace Loop

/-- What the loop has to do with the files. -/
def mirroring (s : Loop) : Mirroring := ⟨s.world, s.queue⟩

/-- A session that has started and waits for its first callback. -/
def start (startup : Startup) (workingDir : String)
    (wspaceId sessionRecId : ℤ) (t : Tables) : Loop where
  world := (initFileManager startup workingDir wspaceId sessionRecId
    (World.uninitialised t)).2
  queue := []
  dispatch := Dispatch.idle

/-- As for `Mirroring`: commands rewrite cached files in place, commits by
others are announced, calls succeed. -/
def Valid (s : Loop) : LoopOp → Prop
  | .write name data => data.length < 2 ^ 31 ∧
      ∃ id r, Cached s.world id r ∧ (s.world.fm.objects r).path = name
  | .remove _ => False
  | .commit tables message => ∃ id,
      parseNotification s.world.fm.wspaceId message = some ('u', id) ∧
        (tables = s.world.db.committed ∨ ∃ version lastmod data,
          fitsInt4 version = true ∧ fitsInt4 lastmod = true ∧
            data.length < 2 ^ 31 ∧
            tables = Commit.execute s.world.fm.wspaceId
              (.change id version lastmod data) s.world.db.committed)
  | .poll _ => True
  | .inotify envs => ∀ env ∈ envs, env.Works
  | .notify env envs => env.Works ∧ ∀ env ∈ envs, env.Works
  | .ignoreOff => True

/-- R writes while the window is closed and no notification is about to open
it, and a callback that handles events handles all of them.  Commands run at
the default priority, half of 4, which is the one of notifications, so one
pass of the queue may hold both. -/
def Paced (s : Loop) : LoopOp → Prop
  | .write _ _ => s.world.fm.ignoreFSNotifications = false ∧
      .notify ∉ s.dispatch.running
  | .inotify envs => s.world.fm.ignoreFSNotifications = false →
      s.world.inotify.unread.length ≤ envs.length
  | _ => True

/-- When the window is open or about to be opened, the end of a write that is
still unread is of a file that does not need it. -/
structure Covered (s : Loop) : Prop where
  tracking : Tracking s.mirroring
  timed : Timed s.world
  covered : s.world.fm.ignoreFSNotifications = true ∨
      .notify ∈ s.dispatch.running →
    ∀ id, Written s.world id s.world.inotify.unread →
      Agrees s.world id ∨ s.mirroring.Announced id

/-- A poll that starts the notifications finds no event unread. -/
theorem unread_of_notify {s : Loop} {expired : Bool}
    (h : .notify ∈ (s.step (.poll expired)).dispatch.running) :
    s.world.inotify.unread = [] := by
  by_contra hunread
  have hready : .inotify ∈ s.ready expired := by
    simp [ready, hunread]
  have hle : Callback.notify.priority ≤ Callback.inotify.priority :=
    Dispatch.priority_le_of_mem_poll Callback.priority h hready
  revert hle
  decide

/-- What is done in the loop, as steps of `Mirroring`. -/
def Mirrored (s : Loop) (op : LoopOp) (ops : List MirrorOp) : Prop :=
  Along Mirroring.step (fun m op => m.Valid op ∧ m.LossFree op)
      s.mirroring ops ∧
    (s.step op).mirroring = run Mirroring.step s.mirroring ops

section step

variable {s : Loop}

/-- Where one step of `Mirroring` does it, only what is unread behind it is
left to say. -/
theorem Covered.mirrored (h : Covered s) {op : LoopOp} (mop : MirrorOp)
    (hvalid : s.mirroring.Valid mop) (hfree : s.mirroring.LossFree mop)
    (hstep : (s.step op).mirroring = s.mirroring.step mop)
    (hcovered : (s.step op).world.fm.ignoreFSNotifications = true ∨
        .notify ∈ (s.step op).dispatch.running →
      ∀ id, Written (s.step op).world id (s.step op).world.inotify.unread →
        Agrees (s.step op).world id ∨ (s.step op).mirroring.Announced id) :
    Covered (s.step op) ∧ ∃ ops, s.Mirrored op ops := by
  have hworld : (s.step op).world = (s.mirroring.step mop).world :=
    congrArg Mirroring.world hstep
  refine ⟨⟨?_, ?_, hcovered⟩, [mop], ⟨⟨hvalid, hfree⟩, trivial⟩, hstep⟩
  · rw [hstep]
    exact h.tracking.step hvalid hfree
  · rw [hworld]
    exact Mirroring.step_timed h.timed mop

theorem Covered.write (h : Covered s) {name : String} {data : Bytes}
    (hvalid : s.Valid (.write name data))
    (hpaced : s.Paced (.write name data)) :
    Covered (s.step (.write name data)) ∧
      ∃ ops, s.Mirrored (.write name data) ops := by
  refine h.mirrored (.rewrite name data) hvalid.2 hvalid.1 rfl ?_
  rintro (hopen | hnotify)
  · rw [step, World.writeFile] at hopen
    rw [hpaced.1] at hopen
    cases hopen
  · exact absurd hnotify hpaced.2

theorem Covered.commit (h : Covered s) {tables : Tables} {message : String}
    (hvalid : s.Valid (.commit tables message)) :
    Covered (s.step (.commit tables message)) ∧
      ∃ ops, s.Mirrored (.commit tables message) ops := by
  obtain ⟨id, hparse, hsame | hchange⟩ := hvalid
  · subst hsame
    refine h.mirrored (.notify message) ⟨id, hparse⟩ trivial rfl ?_
    intro hopen k hk
    refine (h.covered hopen k hk).imp_right fun hannounced => ?_
    exact hannounced.mono (fun m hm => List.mem_append_left _ hm) rfl
  · obtain ⟨version, lastmod, data, hversion, hdate, hsize, rfl⟩ := hchange
    refine h.mirrored (.remoteUpdate id version lastmod data message)
      ⟨hversion, hdate, hsize, hparse⟩ trivial rfl ?_
    intro hopen k hk
    by_cases hid : k = id
    · subst hid
      exact .inr ⟨message, by simp [step, mirroring], hparse⟩
    · have hs : SameFiles s.world (Replication.commitWorld s.world
          (.change id version lastmod data)) :=
        ⟨rfl, rfl, rfl, rfl, rfl, fun _ => rfl, fun _ => rfl, fun _ => rfl,
          rfl⟩
      rcases h.covered hopen k hk with hagrees | hannounced
      · exact .inl (hagrees.change hs rfl hid rfl)
      · exact .inr (hannounced.mono
          (fun m hm => List.mem_append_left _ hm) rfl)

theorem Covered.poll (h : Covered s) (expired : Bool) :
    Covered (s.step (.poll expired)) ∧
      ∃ ops, s.Mirrored (.poll expired) ops := by
  refine ⟨⟨h.tracking, h.timed, ?_⟩, [], trivial, rfl⟩
  rintro (hopen | hnotify) id hwritten
  · exact h.covered (.inl hopen) id hwritten
  · obtain ⟨event, hmem, -⟩ := hwritten
    have hunread : s.world.inotify.unread = [] := unread_of_notify hnotify
    have hmem : event ∈ s.world.inotify.unread := hmem
    rw [hunread] at hmem
    cases hmem

theorem Covered.inotify (h : Covered s) {envs : List Env}
    (hvalid : s.Valid (.inotify envs)) (hpaced : s.Paced (.inotify envs)) :
    Covered (s.step (.inotify envs)) ∧
      ∃ ops, s.Mirrored (.inotify envs) ops := by
  cases hflag : s.world.fm.ignoreFSNotifications with
  | true =>
      -- the events are dropped, and no file needs one of them
      have hcovered := h.covered (.inl hflag)
      have hfree : s.mirroring.LossFree (.deliverEvents envs) := by
        intro _ id hwritten
        have hall := hwritten.mono fun _ hm => List.mem_of_mem_take hm
        exact (hcovered id hall).imp_right .inl
      have hworld : (s.step (.inotify envs)).world =
          s.world.readEvents envs.length :=
        congrArg Mirroring.world
          (Mirroring.step_deliverEvents_of_open (s := s.mirroring) hflag envs)
      refine h.mirrored (.deliverEvents envs) hvalid hfree rfl ?_
      intro _ id hwritten
      have hannounced : (s.step (.inotify envs)).mirroring.Announced id ↔
          s.mirroring.Announced id := by
        simp only [Mirroring.Announced, mirroring, hworld]
        rfl
      rw [hannounced, hworld]
      rw [hworld] at hwritten
      refine hcovered id (hwritten.mono fun _ hm => ?_)
      exact List.mem_of_mem_drop hm
  | false =>
      -- the events are handled, and none is left
      have hfree : s.mirroring.LossFree (.deliverEvents envs) := by
        intro hopen
        rw [mirroring, hflag] at hopen
        cases hopen
      refine h.mirrored (.deliverEvents envs) hvalid hfree rfl ?_
      rintro - id ⟨event, hmem, -⟩
      have hunread : (s.step (.inotify envs)).world.inotify.unread = [] :=
        h.tracking.readAll hflag (hpaced hflag) hvalid
      rw [hunread] at hmem
      cases hmem

theorem Covered.notify (h : Covered s) {env : Env} {envs : List Env}
    (henabled : s.Enabled (.notify env envs))
    (hvalid : s.Valid (.notify env envs)) :
    Covered (s.step (.notify env envs)) ∧
      ∃ ops, s.Mirrored (.notify env envs) ops := by
  have hbatch : ∀ entry ∈ envs.zip s.queue, entry.1.Works ∧
      ∃ id, parseNotification s.world.fm.wspaceId entry.2 =
        some ('u', id) := by
    intro entry hentry
    obtain ⟨henv, hmessage⟩ := List.of_mem_zip hentry
    exact ⟨hvalid.2 _ henv, h.tracking.messages _ hmessage⟩
  have hnotified := Mirroring.handleDBNotifications_notified hvalid.1
    h.tracking.inOrder hbatch
  obtain ⟨⟨-, hs, -⟩, hagrees⟩ :=
    (hnotified.mono (fun _ _ h => h) fun _ _ h => h.elim).final
  have hqueued := Mirroring.handleDBNotifications_written hvalid.1
    h.tracking.inOrder hbatch
  have hwritten :=
    (hqueued.mono (fun _ _ h => h) fun _ _ h => h.elim).final
  refine h.mirrored (.deliverNotifications env envs) hvalid trivial rfl ?_
  intro _ id hid
  rcases hwritten id hid with hbefore | hafter
  · rcases h.covered (.inr henabled) id hbefore with hsame | hannounced
    · exact .inl (hagrees id (.inl hsame))
    · obtain ⟨message, hmem, hparse⟩ := hannounced
      rcases mem_zip_or_drop envs hmem with ⟨entry, hentry, rfl⟩ | hleft
      · exact .inl (hagrees id (.inr ⟨entry, hentry, hparse⟩))
      · exact .inr ⟨message, hleft, hs.wspaceId.symm ▸ hparse⟩
  · exact .inl hafter

/-- The timer that fires, also when none was set. -/
theorem mirroring_ignoreOff (h : Timed s.world) :
    (s.step .ignoreOff).mirroring = s.mirroring.step .ignoreOff := by
  by_cases htimer : 0 < s.world.fm.ignoreOffTimers
  · exact (if_pos htimer).symm
  · have hwindow : s.world.window = (false, 0) := by
      refine h.resolve_right fun hopen => htimer ?_
      have hone : s.world.fm.ignoreOffTimers = 1 := congrArg Prod.snd hopen
      omega
    have hworld : (handleIgnoreFSNotesOff s.world).2 = s.world := by
      have hflag : s.world.fm.ignoreFSNotifications = false :=
        congrArg Prod.fst hwindow
      have htimers : s.world.fm.ignoreOffTimers = 0 :=
        congrArg Prod.snd hwindow
      rw [handleIgnoreFSNotesOff, Act.modify_apply, htimers, ← hflag,
        Nat.zero_sub, ← htimers]
    calc (s.step .ignoreOff).mirroring
        = ⟨(handleIgnoreFSNotesOff s.world).2, s.queue⟩ := rfl
      _ = s.mirroring := by rw [hworld]; rfl
      _ = s.mirroring.step .ignoreOff := (if_neg htimer).symm

theorem Covered.ignoreOff (h : Covered s) :
    Covered (s.step .ignoreOff) ∧ ∃ ops, s.Mirrored .ignoreOff ops := by
  refine h.mirrored .ignoreOff trivial trivial
    (mirroring_ignoreOff h.timed) ?_
  rintro (hopen | hnotify)
  · cases hopen
  · exact h.covered (.inr (List.mem_of_mem_erase hnotify))

/-- Every kind of step keeps the files covered, and is what some steps of
`Mirroring` are, none of which loses a write. -/
theorem Covered.step (h : Covered s) {op : LoopOp}
    (henabled : s.Enabled op) (hvalid : s.Valid op) (hpaced : s.Paced op) :
    Covered (s.step op) ∧ ∃ ops, s.Mirrored op ops := by
  cases op with
  | write name data => exact h.write hvalid hpaced
  | remove name => exact hvalid.elim
  | commit tables message => exact h.commit hvalid
  | poll expired => exact h.poll expired
  | inotify envs => exact h.inotify hvalid hpaced
  | notify env envs => exact h.notify henabled hvalid
  | ignoreOff => exact h.ignoreOff

end step

/-! ## Runs -/

theorem start_covered {startup : Startup} {wspaceId : ℤ} {t : Tables}
    (workingDir : String) (sessionRecId : ℤ) (hready : t.Ready wspaceId)
    (hstartup : startup.Succeeds (t.workspace wspaceId)) :
    Covered (start startup workingDir wspaceId sessionRecId t) := by
  obtain ⟨w, hrun, hstarted⟩ :=
    (wp_initFileManager workingDir sessionRecId hready hstartup).ends
  have hstart : start startup workingDir wspaceId sessionRecId t =
      ⟨w, [], Dispatch.idle⟩ := by
    rw [start, hrun]
  rw [hstart]
  refine ⟨hstarted.tracking, .inl ?_, ?_⟩
  · rw [World.window, hstarted.window]
    exact congrArg (Prod.mk false) hstarted.quiescent.2.2
  · rintro (hopen | hnotify)
    · rw [hstarted.window] at hopen
      cases hopen
    · cases hnotify

/-- A session runs in the loop from its start.  When R rewrites files only
while the ignore window is closed and no notification is about to open it, the
run is one of `Mirroring` in which no write is lost; so in every state in
which nothing is pending both sides of every file agree. -/
theorem synced_of_paced {startup : Startup} {workingDir : String}
    {wspaceId sessionRecId : ℤ} {t : Tables} {ops : List LoopOp}
    (hready : t.Ready wspaceId)
    (hstartup : startup.Succeeds (t.workspace wspaceId))
    (henabled : Along step Enabled
      (start startup workingDir wspaceId sessionRecId t) ops)
    (hvalid : Along step Valid
      (start startup workingDir wspaceId sessionRecId t) ops)
    (hpaced : Along step Paced
      (start startup workingDir wspaceId sessionRecId t) ops) :
    let s₀ := start startup workingDir wspaceId sessionRecId t
    let s := run step s₀ ops
    (∃ mops, Along Mirroring.step Mirroring.Valid s₀.mirroring mops ∧
      Along Mirroring.step Mirroring.LossFree s₀.mirroring mops ∧
      s.mirroring = run Mirroring.step s₀.mirroring mops) ∧
    (s.mirroring.Quiescent → s.mirroring.Synced) := by
  intro s₀ s
  have hguard := along_and.mpr ⟨henabled, along_and.mpr ⟨hvalid, hpaced⟩⟩
  obtain ⟨hcovered, mops, hmops, hrun⟩ := run_simulation (f := mirroring)
    (I := Covered)
    (fun _ _ h hg => h.step hg.1 hg.2.1 hg.2.2)
    (start_covered workingDir sessionRecId hready hstartup) hguard
  obtain ⟨hvalid', hfree⟩ := along_and.mp hmops
  exact ⟨⟨mops, hvalid', hfree, hrun⟩, hcovered.tracking.synced⟩

/-- Another session changes `a.R`; when the window has closed again, R
rewrites it. -/
def heardThenWritten : List LoopOp :=
  let env := Env.succeeding 3 1
  [.commit (Commit.execute 1 (.change 7 2 0 [1]) oneFile) "u7/1/", .poll false,
    .notify env [env], .poll false, .inotify [env, env, env], .poll true,
    .ignoreOff, .write "a.R" [2], .poll false, .inotify [env, env, env],
    .poll true, .ignoreOff]

theorem synced_heardThenWritten :
    (run step (start (oneFileStartup 3) "wd" 1 1 oneFile)
      heardThenWritten).mirroring.Synced := by
  have hcommit : parseNotification 1 "u7/1/" = some ('u', 7) ∧
      fitsInt4 2 = true ∧ fitsInt4 0 = true ∧
      ([1] : Bytes).length < 2 ^ 31 := by decide
  have hsize : ([2] : Bytes).length < 2 ^ 31 := by decide
  have hanswers : ∀ n, ∀ env ∈ List.replicate n (Env.succeeding 3 1),
      env.Works := fun _ => Mirroring.works_of_mem_replicate
  have henabled : Along step Enabled
      (start (oneFileStartup 3) "wd" 1 1 oneFile) heardThenWritten := by
    decide
  have hvalid : Along step Valid
      (start (oneFileStartup 3) "wd" 1 1 oneFile) heardThenWritten :=
    ⟨⟨7, hcommit.1,
        .inr ⟨2, 0, [1], hcommit.2.1, hcommit.2.2.1, hcommit.2.2.2, rfl⟩⟩,
      trivial,
      ⟨Env.succeeding_works 3 1, hanswers 1⟩, trivial, hanswers 3, trivial,
      trivial, ⟨hsize, 7, 0, by decide, by decide⟩, trivial, hanswers 3,
      trivial, trivial, trivial⟩
  have hpaced : Along step Paced
      (start (oneFileStartup 3) "wd" 1 1 oneFile) heardThenWritten :=
    ⟨trivial, trivial, trivial, trivial, fun _ => by decide, trivial, trivial,
      ⟨by decide, by decide⟩, trivial, fun _ => by decide, trivial, trivial,
      trivial⟩
  exact (synced_of_paced oneFile_ready (oneFileStartup_succeeds (by decide))
    henabled hvalid hpaced).2 ⟨by decide, by decide, by decide⟩

/-- A write in the pass of a notification is lost, although the window is
closed. -/
example :
    let env := Env.succeeding 3 1
    let s := run step (start (oneFileStartup 3) "wd" 1 1 oneFile)
      [.commit oneFile "u9/1/", .poll false, .write "a.R" [2],
        .notify env [env], .poll true, .inotify [env, env, env], .poll true,
        .ignoreOff]
    s.world.disk["a.R"]? = some [2] ∧
      s.world.db.committed.rcfiledata[(7 : ℤ)]? = some [] ∧
      s.world.inotify.unread = [] ∧ s.queue = [] ∧
      s.world.fm.ignoreOffTimers = 0 := by
  decide

end Loop

end Rc2Compute.Files
