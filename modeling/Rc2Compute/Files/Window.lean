import Rc2Compute.Files.Frame

/-!
# The ignore window

While `ignoreFSNotifications_` is set, inotify events are dropped.  Setting
the flag schedules the event that clears it.  Whatever the manager's code does
to the two amounts to calls of `ignoreFSNotifications`, so nothing but the
scheduled event clears the flag, and both callbacks leave it set.
-/

namespace Rc2Compute.Files

/-- The flag, and the number of scheduled events that clear it. -/
def World.window (w : World) : Bool × ℕ :=
  (w.fm.ignoreFSNotifications, w.fm.ignoreOffTimers)

/-- An open window stays open. -/
def KeepsWindow (w w' : World) : Prop :=
  w.fm.ignoreFSNotifications = true → w'.fm.ignoreFSNotifications = true

/-- The window is as it was, or as `ignoreFSNotifications` leaves it. -/
def MayOpen (w w' : World) : Prop :=
  w'.window = w.window ∨ w'.window = (windowOpened w).window

theorem window_windowOpened (w : World) : (windowOpened w).window =
    if w.fm.ignoreFSNotifications then w.window
    else (true, w.fm.ignoreOffTimers + 1) := by
  rw [windowOpened_eq]
  split
  · rfl
  · rfl

/-- Opening the window looks at nothing else. -/
theorem window_windowOpened_congr {w w' : World} (h : w'.window = w.window) :
    (windowOpened w').window = (windowOpened w).window := by
  have hflag : w'.fm.ignoreFSNotifications = w.fm.ignoreFSNotifications :=
    congrArg Prod.fst h
  have htimers : w'.fm.ignoreOffTimers = w.fm.ignoreOffTimers :=
    congrArg Prod.snd h
  rw [window_windowOpened, window_windowOpened, hflag, htimers, h]

theorem windowOpened_open (w : World) :
    (windowOpened w).fm.ignoreFSNotifications = true := by
  rw [windowOpened_eq]
  split
  next h => exact h
  next => rfl

/-- An open window is not opened again. -/
theorem windowOpened_of_open {w : World}
    (h : w.fm.ignoreFSNotifications = true) : windowOpened w = w := by
  rw [windowOpened_eq, if_pos h]

instance : Std.Refl MayOpen where
  refl _ := Or.inl rfl

instance : IsTrans World MayOpen where
  trans a b c hab hbc := by
    rcases hbc with hbc | hbc
    · rw [MayOpen, hbc]
      exact hab
    · right
      rcases hab with hab | hab
      · rw [hbc, window_windowOpened_congr hab]
      · rw [hbc, window_windowOpened_congr hab,
          windowOpened_of_open (windowOpened_open a)]

theorem mayOpen_of_fm_eq {w w' : World} (h : w'.fm = w.fm) :
    MayOpen w w' :=
  Or.inl (by rw [World.window, World.window, h])

/-- What only opens an open window leaves it as it is. -/
theorem MayOpen.of_open {w w' : World} (h : MayOpen w w')
    (hopen : w.fm.ignoreFSNotifications = true) : w'.window = w.window := by
  rcases h with h | h
  · exact h
  · rwa [windowOpened_of_open hopen] at h

/-- No event fires meanwhile. -/
theorem MayOpen.timers_le {w w' : World} (h : MayOpen w w') :
    w.fm.ignoreOffTimers ≤ w'.fm.ignoreOffTimers := by
  rcases h with h | h
  · exact (congrArg Prod.snd h).ge
  · rw [window_windowOpened] at h
    split at h
    · exact (congrArg Prod.snd h).ge
    · exact Nat.le_of_lt (Nat.lt_of_succ_le (congrArg Prod.snd h).ge)

theorem MayOpen.keepsWindow {w w' : World} (h : MayOpen w w') :
    KeepsWindow w w' :=
  fun hopen => (congrArg Prod.fst (h.of_open hopen)).trans hopen

/-! ## Statements -/

theorem executeQuery_mayOpen (env : Env) (call : Call)
    (statement : Tables → Option Tables) :
    Act.Keeps MayOpen (executeQuery env call statement) := by
  intro w
  obtain ⟨ok, db, h⟩ := executeQuery_returns env call statement w
  rw [h]
  exact mayOpen_of_fm_eq rfl

theorem commitTransaction_mayOpen (env : Env) :
    Act.Keeps MayOpen (commitTransaction env) := by
  intro w
  obtain ⟨ok, db, h⟩ := commitTransaction_returns env w
  rw [h]
  exact mayOpen_of_fm_eq rfl

theorem withTransaction_mayOpen {α : Type} (env : Env) {body : Prog α}
    (h : Act.Keeps MayOpen body) :
    Act.Keeps MayOpen (withTransaction env body) := by
  have hbegin : Act.Keeps MayOpen (beginTransaction env) := by
    refine Act.Keeps.modify fun w => ?_
    split
    · exact Std.Refl.refl w
    · exact mayOpen_of_fm_eq rfl
  exact (hbegin.bind fun _ => h).ensuring fun _ => mayOpen_of_fm_eq rfl

/-! ## Objects and maps -/

theorem store_mayOpen (ptr : DBFileInfoPtr)
    (f : DBFileInfo → DBFileInfo) : Act.Keeps MayOpen (store ptr f) := by
  cases ptr with
  | none =>
      exact Act.Keeps.undefined.bind fun _ =>
        Act.Keeps.modify fun _ => Or.inl rfl
  | some r =>
      exact (Act.Keeps.pure r).bind fun _ =>
        Act.Keeps.modify fun _ => Or.inl rfl

theorem newDBFileInfo_mayOpen (env : Env) (anId aVersion : ℤ)
    (aName : String) :
    Act.Keeps MayOpen (newDBFileInfo env anId aVersion aName) :=
  fun _ => Or.inl rfl

theorem filesByIdIndex_mayOpen (id : ℤ) :
    Act.Keeps MayOpen (filesByIdIndex id) := by
  intro w
  rw [filesByIdIndex]
  split
  · exact Or.inl rfl
  · exact Or.inl rfl

theorem filesByWatchDescIndex_mayOpen (wd : ℤ) :
    Act.Keeps MayOpen (filesByWatchDescIndex wd) := by
  intro w
  rw [filesByWatchDescIndex]
  split
  · exact Or.inl rfl
  · exact Or.inl rfl

/-! ## Rows -/

theorem insertDBFile_mayOpen (env : Env) (fname : String) :
    Act.Keeps MayOpen (insertDBFile env fname) := by
  have hrows : ∀ fileId,
      Act.Keeps MayOpen (insertRows env fname fileId) := fun fileId =>
    Act.Keeps.get.bind fun _ => (statFails_keeps env fname).bind fun _ =>
    (Act.Keeps.throwIf _ _).bind fun _ =>
    (readFileBlob_keeps env fname).bind fun _ =>
    (escapeLiteral_keeps env fname).bind fun _ =>
    (executeQuery_mayOpen env _ _).bind fun _ =>
    (Act.Keeps.throwIf _ _).bind fun _ =>
    (executeQuery_mayOpen env _ _).bind fun _ =>
    (Act.Keeps.throwIf _ _).bind fun _ =>
    (commitTransaction_mayOpen env).bind fun _ => Act.Keeps.throwIf _ _
  exact withTransaction_mayOpen env <|
    (longFromQuery_keeps env _ _).bind fun _ =>
    (newDBFileInfo_mayOpen env _ _ _).bind fun _ =>
    (hrows _).bind fun _ =>
    Act.Keeps.bind (Act.Keeps.modify fun _ => Or.inl rfl) fun _ =>
    Act.Keeps.pure _

theorem updateDBFile_mayOpen (env : Env) (fobj : DBFileInfoPtr) :
    Act.Keeps MayOpen (updateDBFile env fobj) := by
  have hrows : ∀ id newVersion data,
      Act.Keeps MayOpen (updateRows env id newVersion data) :=
    fun _ _ _ =>
    (executeQuery_mayOpen env _ _).bind fun _ =>
    (Act.Keeps.throwIf _ _).bind fun _ =>
    (executeQuery_mayOpen env _ _).bind fun _ =>
    (Act.Keeps.throwIf _ _).bind fun _ =>
    (commitTransaction_mayOpen env).bind fun _ => Act.Keeps.throwIf _ _
  exact (load_keeps fobj).bind fun _ => (statFails_keeps env _).bind fun _ =>
    (Act.Keeps.throwIf _ _).bind fun _ =>
    (readFileBlob_keeps env _).bind fun _ =>
    withTransaction_mayOpen env <|
      (hrows _ _ _).bind fun _ => store_mayOpen fobj _

theorem removeDBFile_mayOpen (env : Env) (fobj : DBFileInfoPtr) :
    Act.Keeps MayOpen (removeDBFile env fobj) :=
  (load_keeps fobj).bind fun _ =>
    (executeQuery_mayOpen env _ _).bind fun _ =>
    Act.Keeps.ite (Act.Keeps.modify fun _ => Or.inl rfl) (Act.Keeps.pure _)

/-! ## The kernel -/

theorem inotify_rm_watch_mayOpen (wd : ℤ) :
    Act.Keeps MayOpen (inotify_rm_watch wd) := by
  refine Act.Keeps.modify fun w => ?_
  split
  · exact mayOpen_of_fm_eq rfl
  · exact Std.Refl.refl w

theorem inotify_add_watch_mayOpen (env : Env) (path : String)
    (mask : UInt32) :
    Act.Keeps MayOpen (inotify_add_watch env path mask) :=
  Act.Keeps.ite (Act.Keeps.pure _) <|
    Act.Keeps.bind (Act.Keeps.modify fun _ => Or.inl rfl) fun _ =>
    Act.Keeps.pure _

theorem watchFile_mayOpen (env : Env) (file : DBFileInfoPtr) :
    Act.Keeps MayOpen (watchFile env file) :=
  (load_keeps file).bind fun _ => Act.Keeps.get.bind fun _ =>
    (statFails_keeps env _).bind fun _ => (Act.Keeps.throwIf _ _).bind fun _ =>
    (inotify_add_watch_mayOpen env _ _).bind fun _ =>
    (store_mayOpen file _).bind fun _ =>
    (Act.Keeps.throwIf _ _).bind fun _ => Act.Keeps.modify fun _ => Or.inl rfl

/-! ## Images -/

theorem ignoreFSNotifications_mayOpen :
    Act.Keeps MayOpen ignoreFSNotifications :=
  fun _ => Or.inr rfl

theorem insertImage_mayOpen (env : Env) (fname imgNumStr : String) :
    Act.Keeps MayOpen (insertImage env fname imgNumStr) := by
  have hbatch : Act.Keeps MayOpen (startImageBatch env) :=
    Act.Keeps.get.bind fun _ => Act.Keeps.ite
      ((longFromQuery_keeps env _ _).bind fun _ =>
        Act.Keeps.modify fun _ => Or.inl rfl)
      (Act.Keeps.pure _)
  exact (readFileBlob_keeps env fname).bind fun _ =>
    Act.Keeps.ite (Act.Keeps.pure _) <|
    (longFromQuery_keeps env _ _).bind fun _ =>
    (Act.Keeps.throwIf _ _).bind fun _ => hbatch.bind fun _ =>
    Act.Keeps.get.bind fun _ => (executeQuery_mayOpen env _ _).bind fun _ =>
    (Act.Keeps.throwIf _ _).bind fun _ =>
    Act.Keeps.bind (Act.Keeps.modify fun _ => Or.inl rfl) fun _ =>
    ignoreFSNotifications_mayOpen.bind fun _ =>
    (Act.Keeps.throwIf _ _).bind fun _ =>
    Act.Keeps.modify fun _ => mayOpen_of_fm_eq (removeFile_fm ..)

/-! ## Callbacks -/

theorem handleCreate_mayOpen (env : Env) (event : InotifyEvent) :
    Act.Keeps MayOpen (handleCreate env event) := by
  refine Act.Keeps.ite (Act.Keeps.pure _) ?_
  split
  · exact (inotify_add_watch_mayOpen env _ _).bind fun _ =>
      (Act.Keeps.throwIf _ _).bind fun _ => Act.Keeps.modify fun _ => Or.inl rfl
  · refine Act.Keeps.get.bind fun _ => Act.Keeps.ite (Act.Keeps.pure _) ?_
    refine (fileExistsWithName_keeps _).bind fun _ =>
      Act.Keeps.ite (Act.Keeps.pure _) ?_
    exact (insertDBFile_mayOpen env _).bind fun _ =>
      Act.Keeps.ite ((filesByIdIndex_mayOpen _).bind fun _ =>
        watchFile_mayOpen env _) (Act.Keeps.pure _)

theorem handleCloseWrite_mayOpen (env : Env) (event : InotifyEvent) :
    Act.Keeps MayOpen (handleCloseWrite env event) := by
  refine Act.Keeps.get.bind fun w => ?_
  split
  · exact (insertImage_mayOpen env _ _).bind fun _ =>
      (inotify_rm_watch_mayOpen _).bind fun _ =>
      Act.Keeps.modify fun _ => Or.inl rfl
  · exact (filesByWatchDescIndex_mayOpen _).bind fun _ =>
      (load_keeps _).bind fun _ => updateDBFile_mayOpen env _

theorem handleEvent_mayOpen (env : Env) (event : InotifyEvent) :
    Act.Keeps MayOpen (handleEvent env event) := by
  have hdelete : Act.Keeps MayOpen (handleDeleteSelf env event) :=
    (filesByWatchDescIndex_mayOpen _).bind fun _ =>
    (load_keeps _).bind fun _ => (removeDBFile_mayOpen env _).bind fun _ =>
    Act.Keeps.bind (Act.Keeps.modify fun _ => Or.inl rfl) fun _ =>
    inotify_rm_watch_mayOpen _
  have hlogged : Act.Keeps MayOpen (handleLogged event) :=
    (filesByWatchDescIndex_mayOpen _).bind fun _ =>
    (load_keeps _).bind fun _ => Act.Keeps.pure _
  refine Act.Keeps.tryCatch ?_ fun _ => Act.Keeps.pure _
  exact Act.Keeps.ite (handleCreate_mayOpen env event) <|
    Act.Keeps.ite (handleCloseWrite_mayOpen env event) <|
    Act.Keeps.ite hdelete <| Act.Keeps.ite hlogged <| Act.Keeps.pure _

theorem loadFiles_mayOpen (env : Env)
    (whereClause : ℤ → FileRow → Bool) :
    Act.Keeps MayOpen (loadFiles env whereClause) := by
  have hcache : ∀ row, Act.Keeps MayOpen (cacheFile env row) := by
    intro row
    refine Act.Keeps.get.bind fun w => ?_
    split
    · exact store_mayOpen _ _
    · exact (newDBFileInfo_mayOpen env _ _ _).bind fun _ =>
        Act.Keeps.modify fun _ => Or.inl rfl
  have hfile : ∀ row, Act.Keeps MayOpen (loadFile env row) := by
    intro row
    refine (hcache row).bind fun _ => Act.Keeps.modify fun w => ?_
    split
    · exact Std.Refl.refl w
    · exact mayOpen_of_fm_eq rfl
  exact Act.Keeps.get.bind fun _ => Act.Keeps.ite (Act.Keeps.pure _)
    (Act.Keeps.forEach _ hfile)

theorem processDBNotification_mayOpen (env : Env) (message : String) :
    Act.Keeps MayOpen (processDBNotification env message) := by
  have hdelete : ∀ fileId,
      Act.Keeps MayOpen (processDelete env fileId) := by
    intro fileId
    refine Act.Keeps.tryCatch (Act.Keeps.get.bind fun w => ?_)
      fun _ => Act.Keeps.pure _
    split
    · exact Act.Keeps.throw _
    · exact (load_keeps _).bind fun _ =>
        (inotify_rm_watch_mayOpen _).bind fun _ =>
        Act.Keeps.bind (Act.Keeps.modify fun _ => Or.inl rfl) fun _ =>
        (Act.Keeps.throwIf _ _).bind fun _ =>
        Act.Keeps.modify fun _ => mayOpen_of_fm_eq (removeFile_fm ..)
  have hinsert : ∀ id, Act.Keeps MayOpen (processInsert env id) :=
    fun _ => ignoreFSNotifications_mayOpen.bind fun _ =>
    (loadFiles_mayOpen env _).bind fun _ =>
    (filesByIdIndex_mayOpen _).bind fun _ => watchFile_mayOpen env _
  have hupdate : ∀ id, Act.Keeps MayOpen (processUpdate env id) :=
    fun _ => Act.Keeps.get.bind fun _ => Act.Keeps.ite
    (ignoreFSNotifications_mayOpen.bind fun _ =>
      loadFiles_mayOpen env _) (Act.Keeps.pure _)
  refine Act.Keeps.get.bind fun w => ?_
  split
  · exact Act.Keeps.pure _
  · exact Act.Keeps.tryCatch (Act.Keeps.ite (hdelete _) <|
      Act.Keeps.ite (hinsert _) (hupdate _)) fun _ => Act.Keeps.pure _

/-- The notification callback calls `ignoreFSNotifications` first. -/
theorem window_handleDBNotifications (env : Env)
    (batch : List (Env × String)) (w : World) :
    (handleDBNotifications env batch w).2.window =
      (windowOpened w).window := by
  have hloop : Act.Keeps MayOpen (do
      Act.throwIf (env.fails .consumeInput)
        ⟨.dbException, "consume input returned error"⟩
      let w ← Act.get
      Act.forEach batch fun entry =>
        if w.fm.ignoreDBNotifications then pure ()
        else processDBNotification entry.1 entry.2) :=
    (Act.Keeps.throwIf _ _).bind fun _ => Act.Keeps.get.bind fun _ =>
    Act.Keeps.forEach _ fun _ => Act.Keeps.ite (Act.Keeps.pure _)
      (processDBNotification_mayOpen _ _)
  rw [handleDBNotifications,
    Act.bind_apply_returned (ignoreFSNotifications_apply w)]
  exact (hloop (windowOpened w)).of_open (windowOpened_open w)

/-- So does the inotify callback, unless it finds the window open. -/
theorem window_handleInotifyEvent (batch : List (Env × InotifyEvent))
    (w : World) :
    (handleInotifyEvent batch w).2.window = (windowOpened w).window := by
  rw [handleInotifyEvent, Act.bind_apply_returned (Act.get_apply w)]
  by_cases hopen : w.fm.ignoreFSNotifications = true
  · rw [if_pos hopen, windowOpened_of_open hopen]
    rfl
  · have hloop : Act.Keeps MayOpen
        (Act.forEach batch fun entry => handleEvent entry.1 entry.2) :=
      Act.Keeps.forEach _ fun _ => handleEvent_mayOpen _ _
    rw [if_neg hopen, Act.bind_apply_returned (ignoreFSNotifications_apply w)]
    exact (hloop (windowOpened w)).of_open (windowOpened_open w)

theorem handleDBNotifications_open (env : Env)
    (batch : List (Env × String)) (w : World) :
    (handleDBNotifications env batch w).2.fm.ignoreFSNotifications = true :=
  MayOpen.keepsWindow (Or.inl (window_handleDBNotifications env batch w))
    (windowOpened_open w)

theorem handleInotifyEvent_open (batch : List (Env × InotifyEvent))
    (w : World) :
    (handleInotifyEvent batch w).2.fm.ignoreFSNotifications = true :=
  MayOpen.keepsWindow (Or.inl (window_handleInotifyEvent batch w))
    (windowOpened_open w)

end Rc2Compute.Files
