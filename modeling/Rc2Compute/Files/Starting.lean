import Rc2Compute.Files.Mirroring

/-!
# The start of a session

`initFileManager` loads the files of a workspace into a new directory, watches
every file it has loaded, and only then has the database send notifications.
When its calls succeed the session holds the files of the workspace and every
invariant the runs of a session start from.
-/

namespace Rc2Compute.Files

open Mirroring (Cached)

/-! ## The operation -/

/-- What the kernel and the database answer while a session starts: the
descriptors of the queue and of the watch on the directory, which are -1 when
there is none, the answers to `connect`, and those to the watch on each
file. -/
structure Startup where
  inotifyFd : ℤ
  rootWd : ℤ
  env : Env
  envs : ℤ → Env

/-- `setupInotify`: the queue, the watch on the directory and the loop over
the files. -/
def startInotify (s : Startup) : Prog Unit := do
  let w ← Act.get
  Act.throwIf (s.inotifyFd = -1)
    (FormattedException ("inotify_init() failed for " ++ w.fm.workingDir))
  Act.throwIf (s.rootWd = -1) (FormattedException "inotify_add_watched failed")
  Act.modify fun w =>
    { w with inotify := { w.inotify with rootDir := some s.rootWd } }
  setupInotify s.envs

/-- `initFileManager`.  It ends with the statement `listen rcfile`, whose
result it does not look at. -/
def initFileManager (s : Startup) (workingDir : String)
    (wspaceId sessionRecId : ℤ) : Prog Unit := do
  Act.modify fun w => { w with fm := { w.fm with workingDir := workingDir } }
  connect s.env wspaceId sessionRecId
  startInotify s

/-- A manager that has not been initialised, over a database. -/
def World.uninitialised (t : Tables) : World where
  fm := FileManager.initial "" 0 0
  disk := ∅
  inotify := ⟨none, ∅, []⟩
  db := ⟨t, none⟩

/-- The files of one workspace. -/
def Tables.workspace (t : Tables) (wspaceId : ℤ) : Contents := fun id =>
  t.rcfile[id]?.bind fun row =>
    if row.wspaceid = wspaceId then t.fetch id else none

theorem Tables.workspace_eq_some {t : Tables} {wspaceId id : ℤ}
    {row : FetchedFile} :
    t.workspace wspaceId id = some row ↔
      ∃ r, t.rcfile[id]? = some r ∧ r.wspaceid = wspaceId ∧
        t.fetch id = some row := by
  rw [Tables.workspace, Option.bind_eq_some_iff]
  refine exists_congr fun r => and_congr_right fun _ => ?_
  split
  next hours => exact (and_iff_right hours).symm
  next hours =>
      constructor
      · intro h
        cases h
      · exact fun h => absurd h.1 hours

theorem Tables.fetch_of_workspace {t : Tables} {wspaceId id : ℤ}
    {row : FetchedFile} (h : t.workspace wspaceId id = some row) :
    t.fetch id = some row :=
  (Tables.workspace_eq_some.mp h).choose_spec.2.2

/-- The files of the workspace have distinct names, and numbers and contents
that pass through the types of the code. -/
structure Tables.Ready (t : Tables) (wspaceId : ℤ) : Prop where
  name : ∀ id row id' row', t.workspace wspaceId id = some row →
    t.workspace wspaceId id' = some row' → row.name = row'.name → id = id'
  plain : ∀ id row, t.workspace wspaceId id = some row → row.Plain
  size : ∀ id row, t.workspace wspaceId id = some row →
    row.bindata.length < 2 ^ 31

theorem Tables.Ready.wellFormed {t : Tables} {wspaceId : ℤ}
    (h : t.Ready wspaceId) : (t.workspace wspaceId).WellFormed :=
  ⟨fun _ _ hrow => Tables.fetch_id (Tables.fetch_of_workspace hrow), h.name⟩

/-- The calls of a start succeed, and the kernel gives every file of `V` a
descriptor of its own. -/
structure Startup.Succeeds (s : Startup) (V : Contents) : Prop where
  inotifyFd : s.inotifyFd ≠ -1
  rootWd : s.rootWd ≠ -1
  selectWorkspace : s.env.fails .selectWorkspace = false
  findWorkspace : s.env.fails .findWorkspace = false
  selectFiles : s.env.fails .selectFiles = false
  writeFile : s.env.fails .writeFile = false
  stat : ∀ id, V id ≠ none → (s.envs id).fails .stat = false
  addWatch : ∀ id, V id ≠ none → (s.envs id).fails .inotifyAddWatch = false
  newWd : ∀ id, V id ≠ none → (s.envs id).newWd ≠ -1
  distinct : ∀ id id', V id ≠ none → V id' ≠ none →
    (s.envs id).newWd = (s.envs id').newWd → id = id'

/-! ## Loading -/

/-- Only the cached files and the directory change, and without watches no
event is queued. -/
structure OnlyLoads (w w' : World) : Prop where
  fm : w'.fm = { w.fm with
    objects := w'.fm.objects
    nextObject := w'.fm.nextObject
    filesById := w'.fm.filesById }
  quiet : w.inotify.rootDir = none → w.inotify.watches = ∅ →
    w'.inotify = w.inotify

namespace OnlyLoads

instance : Std.Refl OnlyLoads where
  refl _ := ⟨rfl, fun _ _ => rfl⟩

instance : IsTrans World OnlyLoads where
  trans a b c hab hbc := by
    refine ⟨?_, fun hroot hwatches => ?_⟩
    · rw [hbc.fm, hab.fm]
    · have heq := hab.quiet hroot hwatches
      exact (hbc.quiet (heq ▸ hroot) (heq ▸ hwatches)).trans heq

theorem store (ptr : DBFileInfoPtr) (f : DBFileInfo → DBFileInfo) :
    Act.Keeps OnlyLoads (store ptr f) := by
  have hderef : Act.Keeps OnlyLoads (deref ptr) := by
    cases ptr with
    | none => exact Act.Keeps.undefined
    | some r => exact Act.Keeps.pure r
  exact hderef.bind fun _ => Act.Keeps.modify fun _ => ⟨rfl, fun _ _ => rfl⟩

theorem cacheFile (env : Env) (row : FetchedFile) :
    Act.Keeps OnlyLoads (cacheFile env row) := by
  refine Act.Keeps.get.bind fun w => ?_
  split
  · exact store _ _
  · refine Act.Keeps.bind (fun _ => ⟨rfl, fun _ _ => rfl⟩) fun _ => ?_
    exact Act.Keeps.modify fun _ => ⟨rfl, fun _ _ => rfl⟩

theorem writeFile (w : World) (writer : Writer) (name : String)
    (data : Bytes) : OnlyLoads w (w.writeFile writer name data) := by
  refine ⟨rfl, fun hroot hwatches => ?_⟩
  have hnone : w.inotify.watches.toList = [] := by
    rw [hwatches]
    exact Map.toList_eq_nil fun _ => Std.TreeMap.getElem?_emptyc
  simp only [World.writeFile, Inotify.rootEvents, Inotify.fileEvents, hroot,
    hnone]
  rw [← hroot]
  simp

theorem loadFiles (env : Env) (whereClause : ℤ → FileRow → Bool) :
    Act.Keeps OnlyLoads (loadFiles env whereClause) := by
  refine Act.Keeps.get.bind fun w => Act.Keeps.ite (Act.Keeps.pure _) ?_
  refine Act.Keeps.forEach _ fun row => (cacheFile env row).bind fun _ => ?_
  refine Act.Keeps.modify fun w => ?_
  split
  · exact Std.Refl.refl w
  · exact writeFile w _ _ _

end OnlyLoads

/-- Loading the rows of a workspace into an empty directory. -/
theorem loadFiles_holds {env : Env} {w : World}
    (hempty : Holds w fun _ => none)
    (hready : w.db.committed.Ready w.fm.wspaceId)
    (hselect : env.fails .selectFiles = false)
    (hwrite : env.fails .writeFile = false) :
    Act.wp (loadFiles env (whereWspace w.fm.wspaceId))
      (fun _ w' => Holds w' (w.db.committed.workspace w.fm.wspaceId) ∧
        w'.db = w.db ∧ w'.fm.wspaceId = w.fm.wspaceId)
      (fun _ _ => False) w := by
  let rows := w.db.committed.selectFiles (whereWspace w.fm.wspaceId)
  have hmem : ∀ row, row ∈ rows ↔
      w.db.committed.workspace w.fm.wspaceId row.id = some row := by
    intro row
    rw [mem_selectFiles, Tables.workspace_eq_some]
    simp only [whereWspace, decide_eq_true_eq]
  have hfits : rows.all FetchedFile.fits = true := by
    rw [List.all_eq_true]
    exact fun row hrow => (hready.plain _ row ((hmem row).mp hrow)).fits
  have hrest : ∀ id, (none : Option FetchedFile) =
      if ∃ row ∈ rows, row.id = id then none
      else w.db.committed.workspace w.fm.wspaceId id := by
    intro id
    split
    next => rfl
    next hno =>
      by_contra hne
      obtain ⟨row, hrow⟩ := Option.ne_none_iff_exists'.mp fun h => hne h.symm
      obtain rfl : row.id = id := hready.wellFormed.id _ _ hrow
      exact hno ⟨row, (hmem row).mpr hrow, rfl⟩
  rw [loadFiles, Act.wp_bind, Act.wp_get]
  beta_reduce
  change Act.wp (if (env.fails .selectFiles ||
    !rows.all FetchedFile.fits) = true then _ else _) _ _ _
  rw [hselect, hfits, if_neg (by decide)]
  exact loadAll_holds hwrite hready.wellFormed hready.plain
    (fun row hrow => (hmem row).mp hrow) (selectFiles_pairwise _ _) hempty
    hrest

/-- What `connect` leaves when its calls succeed. -/
structure Connected (t : Tables) (wspaceId : ℤ) (w : World) : Prop where
  holds : Holds w (t.workspace wspaceId)
  db : w.db = ⟨t, none⟩
  wspaceId : w.fm.wspaceId = wspaceId
  unwatched : w.fm.filesByWatchDesc = ∅
  images : w.fm.pendingImagesByWatchDesc = ∅
  listens : w.fm.ignoreDBNotifications = false
  window : w.fm.ignoreFSNotifications = false
  timers : w.fm.ignoreOffTimers = 0
  watches : w.inotify.watches = ∅
  unread : w.inotify.unread = []

/-- The watch on the directory. -/
theorem Connected.root {t : Tables} {wspaceId : ℤ} {w : World}
    (h : Connected t wspaceId w) (wd : ℤ) :
    Connected t wspaceId
      { w with inotify := { w.inotify with rootDir := some wd } } where
  holds := h.holds.of_sameReplica
    (SameReplica.of_objects rfl rfl rfl rfl rfl rfl)
  db := h.db
  wspaceId := h.wspaceId
  unwatched := h.unwatched
  images := h.images
  listens := h.listens
  window := h.window
  timers := h.timers
  watches := h.watches
  unread := h.unread

theorem holds_none (w : World) (hfiles : w.fm.filesById = ∅)
    (hdisk : w.disk = ∅) : Holds w fun _ => none := by
  refine ⟨⟨fun _ _ h => (by cases h), fun _ _ _ _ h => (by cases h)⟩,
    ⟨fun id ptr h => ?_, fun _ _ h => (by cases h)⟩,
    ⟨fun _ _ h => (by cases h), fun name h => ?_⟩⟩
  · simp [hfiles] at h
  · simp [hdisk] at h

theorem connect_connected {s : Startup} {t : Tables} {wspaceId : ℤ}
    (workingDir : String) (sessionRecId : ℤ) (hready : t.Ready wspaceId)
    (hs : s.Succeeds (t.workspace wspaceId)) :
    Act.wp (connect s.env wspaceId sessionRecId)
      (fun _ => Connected t wspaceId) (fun _ _ => False)
      { World.uninitialised t with
        fm := { FileManager.initial "" 0 0 with workingDir := workingDir } } := by
  let w : World := { World.uninitialised t with
    fm := { FileManager.initial "" 0 0 with
      workingDir := workingDir
      wspaceId := wspaceId
      sessionRecId := sessionRecId } }
  have hsource : initializeSource s.env wspaceId w = (.returned (), w) := by
    simp [initializeSource, hs.selectWorkspace, hs.findWorkspace,
      Act.bind_apply, Act.throwIf]
  have hload := (loadFiles_holds (w := w) (holds_none w rfl rfl) hready
    hs.selectFiles hs.writeFile)
  obtain ⟨w', hrun, hholds, hdb, hwspace⟩ := hload.ends
  have honly := OnlyLoads.loadFiles s.env (whereWspace wspaceId) w
  rw [hrun] at honly
  rw [connect, Act.wp_bind, Act.wp_modify, Act.wp_bind]
  refine Act.wp_of_apply hsource ?_
  rw [Act.wp_bind]
  refine Act.wp_of_apply hrun ?_
  rw [Act.wp_modify]
  have hsame : SameReplica w' { w' with fm := { w'.fm with
      sessionImageBatch := 0 } } :=
    SameReplica.of_objects rfl rfl rfl rfl rfl rfl
  have hinotify : w'.inotify = ⟨none, ∅, []⟩ := honly.quiet rfl rfl
  refine ⟨hholds.of_sameReplica hsame, hdb, hwspace, ?_, ?_, ?_, ?_, ?_,
    congrArg Inotify.watches hinotify, congrArg Inotify.unread hinotify⟩
  all_goals
    dsimp only
    rw [honly.fm]
    rfl

/-! ## Watching -/

/-- The state with the file `r` watched under the descriptor `wd`. -/
def World.watched (w : World) (r : ℕ) (wd : ℤ) : World :=
  { w with
    fm := { w.fm with
      objects := Function.update w.fm.objects r
        { w.fm.objects r with watchDescriptor := wd }
      filesByWatchDesc := w.fm.filesByWatchDesc.insert wd (some r) }
    inotify := { w.inotify with
      watches := w.inotify.watches.insert wd
        ⟨(w.fm.objects r).path, fileMask⟩ } }

theorem watchFile_succeeds {env : Env} {w : World} {r : ℕ}
    (hstat : env.fails .stat = false)
    (hadd : env.fails .inotifyAddWatch = false) (hwd : env.newWd ≠ -1)
    (hdisk : w.disk[(w.fm.objects r).path]? ≠ none) :
    watchFile env (some r) w = (.returned (), w.watched r env.newWd) := by
  have hcontains : w.disk.contains (w.fm.objects r).path = true := by
    rw [Std.TreeMap.contains_eq_isSome_getElem?, Option.isSome_iff_ne_none]
    exact hdisk
  simp [watchFile, statFails, inotify_add_watch, Act.bind_apply, load_some,
    store_some, Act.throwIf, hstat, hadd, hwd, hcontains, World.setObject,
    World.watched]

theorem sameReplica_watched (w : World) (r : ℕ) (wd : ℤ) :
    SameReplica w (w.watched r wd) := by
  refine ⟨rfl, rfl, fun k => ?_, rfl, rfl, rfl⟩
  by_cases hk : k = r
  · subst hk
    simp [World.watched]
  · simp [World.watched, hk]

/-- What the loop over the files has done to `w`, with `wd` the descriptors it
gets: only files of the cache are watched, each under its own. -/
structure Watching (wd : ℤ → ℤ) (w w' : World) : Prop where
  replica : SameReplica w w'
  fm : w'.fm = { w.fm with
    objects := w'.fm.objects
    filesByWatchDesc := w'.fm.filesByWatchDesc }
  unread : w'.inotify.unread = w.inotify.unread
  byWatch : ∀ d ptr, w'.fm.filesByWatchDesc[d]? = some ptr →
    ∃ id r, Cached w id r ∧ ptr = some r ∧ d = wd id
  watches : ∀ d watch, w'.inotify.watches[d]? = some watch →
    ∃ id r, Cached w id r ∧ d = wd id

/-- The file is watched under its descriptor. -/
def WatchedAs (wd : ℤ → ℤ) (w : World) (id : ℤ) (w' : World) : Prop :=
  ∀ r, Cached w id r → (w'.fm.objects r).watchDescriptor = wd id ∧
    w'.fm.filesByWatchDesc[wd id]? = some (some r) ∧
    w'.inotify.watches[wd id]? = some ⟨(w.fm.objects r).path, fileMask⟩

/-- One turn of the loop. -/
theorem Watching.watched {wd : ℤ → ℤ} {w w' : World} {V : Contents}
    (hcaches : Caches w.fm V)
    (hdistinct : ∀ id id', V id ≠ none → V id' ≠ none → wd id = wd id' →
      id = id') {id : ℤ} {r : ℕ} (hr : Cached w id r)
    (h : Watching wd w w') :
    Watching wd w (w'.watched r (wd id)) ∧
      ∀ k, WatchedAs wd w k w' ∨ k = id →
        WatchedAs wd w k (w'.watched r (wd id)) := by
  have hpath : ∀ k, (w'.fm.objects k).path = (w.fm.objects k).path := by
    intro k
    rw [h.replica.object k]
  refine ⟨⟨IsTrans.trans _ _ _ h.replica (sameReplica_watched _ _ _), ?_,
    h.unread, ?_, ?_⟩, ?_⟩
  · rw [World.watched, h.fm]
  · intro d ptr hptr
    change (w'.fm.filesByWatchDesc.insert (wd id) (some r))[d]? = _ at hptr
    rw [Map.getElem?_insert] at hptr
    split at hptr
    next heq =>
      cases hptr
      exact ⟨id, r, hr, rfl, heq.symm⟩
    next => exact h.byWatch d ptr hptr
  · intro d watch hwatch
    change (w'.inotify.watches.insert (wd id) _)[d]? = _ at hwatch
    rw [Map.getElem?_insert] at hwatch
    split at hwatch
    next heq => exact ⟨id, r, hr, heq.symm⟩
    next => exact h.watches d watch hwatch
  · intro k hk r' hr'
    by_cases hsame : k = id
    · subst hsame
      obtain rfl : r = r' := Option.some.inj (Option.some.inj
        (hr.symm.trans hr'))
      refine ⟨by simp [World.watched], Map.getElem?_insert_self _ _ _, ?_⟩
      change (w'.inotify.watches.insert (wd k) _)[wd k]? = _
      rw [Map.getElem?_insert_self, hpath]
    · obtain ⟨hobject, hbyWatch, hwatch⟩ := hk.resolve_right hsame r' hr'
      obtain ⟨_, hsome, -, hid, hV⟩ := hcaches.pointer id _ hr
      cases hsome
      obtain ⟨_, hsome, -, hid', hV'⟩ := hcaches.pointer k _ hr'
      cases hsome
      have hne : r' ≠ r := by
        rintro rfl
        exact hsame (hid'.symm.trans hid)
      have hwd : wd id ≠ wd k := fun heq =>
        hsame (hdistinct id k hV hV' heq).symm
      refine ⟨by simpa [World.watched, hne] using hobject, ?_, ?_⟩
      · exact (Map.getElem?_insert_of_ne _ _ hwd).trans hbyWatch
      · exact (Map.getElem?_insert_of_ne _ _ hwd).trans hwatch

/-- The loop watches every cached file. -/
theorem setupInotify_watches {envs : ℤ → Env} {w : World} {V : Contents}
    (h : Holds w V) (hunwatched : w.fm.filesByWatchDesc = ∅)
    (hwatches : w.inotify.watches = ∅)
    (hstat : ∀ id, V id ≠ none → (envs id).fails .stat = false)
    (hadd : ∀ id, V id ≠ none → (envs id).fails .inotifyAddWatch = false)
    (hwd : ∀ id, V id ≠ none → (envs id).newWd ≠ -1)
    (hdistinct : ∀ id id', V id ≠ none → V id' ≠ none →
      (envs id).newWd = (envs id').newWd → id = id') :
    Act.wp (setupInotify envs)
      (fun _ w' => Watching (fun id => (envs id).newWd) w w' ∧
        ∀ id, WatchedAs (fun id => (envs id).newWd) w id w')
      (fun _ _ => False) w := by
  have hstart : Watching (fun id => (envs id).newWd) w w := by
    refine ⟨Std.Refl.refl w, rfl, rfl, fun d ptr hptr => ?_,
      fun d watch hwatch => ?_⟩
    · simp [hunwatched] at hptr
    · simp [hwatches] at hwatch
  simp only [setupInotify, Act.wp_bind, Act.wp_get]
  refine (Act.wp_forEach_covers
    (I := fun w' => Watching (fun id => (envs id).newWd) w w')
    (G := fun id w' => WatchedAs (fun id => (envs id).newWd) w id w')
    (E := fun id (entry : ℤ × DBFileInfoPtr) => id = entry.1)
    ?_ hstart).mono ?_ fun _ _ h => h
  · rintro ⟨id, ptr⟩ hentry w₁ h₁
    have hid : w.fm.filesById[id]? = some ptr := (Map.mem_toList _).mp hentry
    obtain ⟨r, rfl, -, -, hV⟩ := h.caches.pointer id ptr hid
    obtain ⟨row, hrow⟩ := Option.ne_none_iff_exists'.mp hV
    obtain ⟨r', hr', -, -, hpath⟩ := h.caches.cached id row hrow
    obtain rfl : r = r' := Option.some.inj (Option.some.inj
      (hid.symm.trans hr'))
    have hdisk : w₁.disk[(w₁.fm.objects r).path]? ≠ none := by
      rw [h₁.replica.object r, h₁.replica.disk]
      dsimp only
      rw [hpath, h.stores.onDisk id row hrow]
      exact Option.some_ne_none _
    have hrun := watchFile_succeeds (hstat id hV) (hadd id hV) (hwd id hV)
      hdisk
    refine Act.wp_of_apply (Act.tryCatch_apply_returned hrun) ?_
    exact h₁.watched h.caches hdistinct hid
  · rintro _ w' ⟨hwatching, hall⟩
    refine ⟨hwatching, fun id r hr => hall id (.inr ⟨(id, some r), ?_, rfl⟩) r
      hr⟩
    exact (Map.mem_toList _).mpr hr

/-! ## The session that has started -/

/-- The session holds the files of its workspace, its maps are coherent and
its files in order, both sides of every file agree, and nothing is pending. -/
structure Started (t : Tables) (wspaceId : ℤ) (w : World) : Prop where
  holds : Holds w (t.workspace wspaceId)
  coherent : Coherent w.fm
  tracking : Mirroring.Tracking ⟨w, []⟩
  synced : Mirroring.Synced ⟨w, []⟩
  quiescent : Mirroring.Quiescent ⟨w, []⟩
  window : w.fm.ignoreFSNotifications = false
  db : w.db = ⟨t, none⟩
  wspaceId : w.fm.wspaceId = wspaceId

section started

variable {t : Tables} {wspaceId : ℤ} {wd : ℤ → ℤ} {w w' : World}

/-- The cached object of a file, and the file. -/
theorem Connected.file (h : Connected t wspaceId w) {id : ℤ} {r : ℕ}
    (hr : Cached w id r) :
    ∃ row, t.workspace wspaceId id = some row ∧ (w.fm.objects r).id = id ∧
      r < w.fm.nextObject ∧ (w.fm.objects r).path = row.name := by
  obtain ⟨_, hsome, hlt, hid, hV⟩ := h.holds.caches.pointer id _ hr
  cases hsome
  obtain ⟨row, hrow⟩ := Option.ne_none_iff_exists'.mp hV
  obtain ⟨r', hr', -, -, hpath⟩ := h.holds.caches.cached id row hrow
  obtain rfl : r = r' := Option.some.inj (Option.some.inj (hr.symm.trans hr'))
  exact ⟨row, hrow, hid, hlt, hpath⟩

/-- The fields a watch does not change. -/
theorem Watching.object (h : Watching wd w w') (r : ℕ) :
    (w'.fm.objects r).id = (w.fm.objects r).id ∧
      (w'.fm.objects r).path = (w.fm.objects r).path := by
  rw [h.replica.object r]
  exact ⟨rfl, rfl⟩

theorem Watching.cached (h : Watching wd w w') {id : ℤ} {r : ℕ} :
    Cached w' id r ↔ Cached w id r := by
  rw [Cached, h.replica.byId, Cached]

/-- The maps of the manager. -/
theorem Connected.coherent (h : Connected t wspaceId w)
    (hw : Watching wd w w') (hall : ∀ id, WatchedAs wd w id w') :
    Coherent w'.fm := by
  constructor
  · intro id ptr hptr
    rw [hw.replica.byId] at hptr
    obtain ⟨r, rfl, hlt, hid, -⟩ := h.holds.caches.pointer id ptr hptr
    exact ⟨r, rfl, by rwa [hw.replica.nextObject], by rwa [(hw.object r).1]⟩
  · intro d ptr hptr
    obtain ⟨id, r, hr, rfl, rfl⟩ := hw.byWatch d ptr hptr
    obtain ⟨-, -, hid, -⟩ := h.file hr
    refine ⟨r, rfl, (hall id r hr).1, ?_⟩
    rw [(hw.object r).1, hid]
    exact hw.cached.mpr hr

/-- The files as the runs of a session want them. -/
theorem Connected.laid (hready : t.Ready wspaceId)
    (h : Connected t wspaceId w) (hw : Watching wd w w')
    (hall : ∀ id, WatchedAs wd w id w') : Mirroring.Laid w' := by
  have hfm := hw.fm
  refine ⟨?_, ?_, ?_, ?_, ?_, ?_, ?_⟩
  · rw [hfm]
    exact h.images
  · rw [hfm]
    exact h.listens
  · intro id ptr hptr
    rw [hw.replica.byId] at hptr
    obtain ⟨r, rfl, -, hid, hV⟩ := h.holds.caches.pointer id ptr hptr
    obtain ⟨row, hrow⟩ := Option.ne_none_iff_exists'.mp hV
    have hpos := (hready.plain id row hrow).1
    rw [hready.wellFormed.id id row hrow] at hpos
    exact ⟨r, rfl, by rwa [(hw.object r).1], hpos⟩
  · intro id r hr
    obtain ⟨hobject, hbyWatch, -⟩ := hall id r (hw.cached.mp hr)
    rwa [hobject]
  · intro id r hr
    obtain ⟨hobject, -, hwatch⟩ := hall id r (hw.cached.mp hr)
    rwa [hobject, (hw.object r).2]
  · intro d watch hwatch
    obtain ⟨id, r, hr, rfl⟩ := hw.watches d watch hwatch
    exact ⟨id, r, hw.cached.mpr hr, (hall id r hr).1⟩
  · intro id r id' r' hr hr' hpath
    obtain ⟨row, hrow, -, -, hname⟩ := h.file (hw.cached.mp hr)
    obtain ⟨row', hrow', -, -, hname'⟩ := h.file (hw.cached.mp hr')
    rw [(hw.object r).2, (hw.object r').2, hname, hname'] at hpath
    exact hready.name id row id' row' hrow hrow' hpath

theorem Connected.started (hready : t.Ready wspaceId)
    (h : Connected t wspaceId w) (hw : Watching wd w w')
    (hall : ∀ id, WatchedAs wd w id w') : Started t wspaceId w' := by
  have hdb : w'.db = ⟨t, none⟩ := hw.replica.db.trans h.db
  -- a cached file, its row and its bytes
  have hfile : ∀ id r, Cached w' id r → ∃ row, t.fetch id = some row ∧
      row.name = (w'.fm.objects r).path ∧ row.Plain ∧
      row.bindata.length < 2 ^ 31 ∧
      w'.disk[(w'.fm.objects r).path]? = some row.bindata := by
    intro id r hr
    obtain ⟨row, hrow, -, -, hpath⟩ := h.file (hw.cached.mp hr)
    refine ⟨row, Tables.fetch_of_workspace hrow, ?_, hready.plain id row hrow,
      hready.size id row hrow, ?_⟩
    · rw [(hw.object r).2, hpath]
    · rw [(hw.object r).2, hpath, hw.replica.disk]
      exact h.holds.stores.onDisk id row hrow
  have hunread : w'.inotify.unread = [] := by rw [hw.unread, h.unread]
  have hsynced : Mirroring.Synced ⟨w', []⟩ := by
    intro id r hr
    obtain ⟨row, hfetch, -, -, -, hdisk⟩ := hfile id r hr
    simp only [Tables.fetch, Option.bind_eq_some_iff,
      Option.map_eq_some_iff] at hfetch
    obtain ⟨_, -, data, hdata, rfl⟩ := hfetch
    exact hdisk.trans ((congrArg (fun db : Database =>
      db.committed.rcfiledata[id]?) hdb).trans hdata).symm
  have hinOrder : Mirroring.InOrder w' := by
    refine ⟨h.laid hready hw hall, by rw [hdb], ?_, ?_, ?_⟩
    · intro id r hr
      obtain ⟨row, -, -, -, hsize, hdisk⟩ := hfile id r hr
      exact ⟨row.bindata, hdisk, hsize⟩
    · intro id r hr
      obtain ⟨row, hfetch, hname, hplain, hsize, -⟩ := hfile id r hr
      exact ⟨row, by rw [hdb]; exact hfetch, hname, hplain.fits, hsize⟩
    · intro event hevent
      rw [hunread] at hevent
      cases hevent
  refine ⟨h.holds.of_sameReplica hw.replica, h.coherent hw hall,
    ⟨hinOrder, fun _ hm => (by cases hm), fun id => .inl (hsynced id)⟩,
    hsynced, ⟨hunread, rfl, ?_⟩, ?_, hdb,
    hw.replica.wspaceId.trans h.wspaceId⟩
  · change w'.fm.ignoreOffTimers = 0
    rw [hw.fm]
    exact h.timers
  · rw [hw.fm]
    exact h.window

end started

theorem wp_initFileManager {s : Startup} {t : Tables} {wspaceId : ℤ}
    (workingDir : String) (sessionRecId : ℤ) (hready : t.Ready wspaceId)
    (hs : s.Succeeds (t.workspace wspaceId)) :
    Act.wp (initFileManager s workingDir wspaceId sessionRecId)
      (fun _ => Started t wspaceId) (fun _ _ => False)
      (World.uninitialised t) := by
  have hconnect := connect_connected workingDir sessionRecId hready hs
  obtain ⟨w₁, hrun₁, hconnected⟩ := hconnect.ends
  let w₂ : World := { w₁ with inotify :=
    { w₁.inotify with rootDir := some s.rootWd } }
  have hw₂ : Connected t wspaceId w₂ := hconnected.root s.rootWd
  have hwatch := setupInotify_watches hw₂.holds hw₂.unwatched hw₂.watches
    hs.stat hs.addWatch hs.newWd hs.distinct
  obtain ⟨w, hrun, hwatching, hholds⟩ := hwatch.ends
  have hinotify : startInotify s w₁ = (.returned (), w) := by
    rw [startInotify, Act.bind_apply_returned (Act.get_apply w₁),
      Act.bind_apply_returned (Act.throwIf_apply_of_not hs.inotifyFd _ w₁),
      Act.bind_apply_returned (Act.throwIf_apply_of_not hs.rootWd _ w₁),
      Act.bind_apply_returned (Act.modify_apply _ w₁)]
    exact hrun
  have hstart : initFileManager s workingDir wspaceId sessionRecId
      (World.uninitialised t) = (.returned (), w) := by
    rw [initFileManager, Act.bind_apply_returned (Act.modify_apply _ _)]
    exact (Act.bind_apply_returned hrun₁).trans hinotify
  exact Act.wp_of_apply hstart (hw₂.started hready hwatching hholds)

/-- When the calls of a start succeed, the session starts with the files of
its workspace, and with all that its runs rely on. -/
theorem initFileManager_starts {s : Startup} {t : Tables} {wspaceId : ℤ}
    (workingDir : String) (sessionRecId : ℤ) (hready : t.Ready wspaceId)
    (hs : s.Succeeds (t.workspace wspaceId)) :
    ∃ w, initFileManager s workingDir wspaceId sessionRecId
        (World.uninitialised t) = (.returned (), w) ∧
      Started t wspaceId w :=
  (wp_initFileManager workingDir sessionRecId hready hs).ends

/-! ## One file -/

theorem oneFile_workspace {id : ℤ} {row : FetchedFile} :
    oneFile.workspace 1 id = some row ↔
      id = 7 ∧ row = ⟨7, 1, "a.R", 0, []⟩ := by
  rw [Tables.workspace_eq_some, oneFile_fetch]
  by_cases hid : id = 7
  · subst hid
    constructor
    · rintro ⟨-, -, -, hrow⟩
      exact ⟨rfl, (Option.some.inj hrow).symm⟩
    · rintro ⟨-, rfl⟩
      exact ⟨⟨1, 1, "a.R", 0, 0⟩, by decide, by decide, rfl⟩
  · simp [hid]

theorem oneFile_ready : oneFile.Ready 1 := by
  refine ⟨fun id row id' row' h h' _ => ?_, fun id row h => ?_,
    fun id row h => ?_⟩
  · rw [(oneFile_workspace.mp h).1, (oneFile_workspace.mp h').1]
  · rw [(oneFile_workspace.mp h).2]
    decide
  · rw [(oneFile_workspace.mp h).2]
    decide

/-- A start that gives the file the descriptor `wd`. -/
def oneFileStartup (wd : ℤ) : Startup :=
  ⟨0, 1, Env.succeeding wd 1, fun _ => Env.succeeding wd 1⟩

theorem oneFileStartup_succeeds {wd : ℤ} (hwd : wd ≠ -1) :
    (oneFileStartup wd).Succeeds (oneFile.workspace 1) := by
  have henv := Env.succeeding_succeeds wd 1
  have hfd : (0 : ℤ) ≠ -1 := by decide
  have hroot : (1 : ℤ) ≠ -1 := by decide
  refine ⟨hfd, hroot, henv.calls _, henv.calls _, henv.calls _, henv.calls _,
    fun _ _ => henv.calls _, fun _ _ => henv.calls _, fun _ _ => hwd,
    fun id id' h h' _ => ?_⟩
  obtain ⟨row, hrow⟩ := Option.ne_none_iff_exists'.mp h
  obtain ⟨row', hrow'⟩ := Option.ne_none_iff_exists'.mp h'
  rw [(oneFile_workspace.mp hrow).1, (oneFile_workspace.mp hrow').1]

theorem oneFile_starts :
    ∃ w, initFileManager (oneFileStartup 3) "wd" 1 1
        (World.uninitialised oneFile) = (.returned (), w) ∧
      Started oneFile 1 w :=
  initFileManager_starts "wd" 1 oneFile_ready
    (oneFileStartup_succeeds (by decide))

end Rc2Compute.Files
