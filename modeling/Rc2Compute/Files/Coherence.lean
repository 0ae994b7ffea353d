import Rc2Compute.Files.Frame
import Rc2Compute.Support.Transition

/-!
# The two file maps stay coherent

`filesById` and `filesByWatchDesc` share their objects.  This module says what
coherence of the two maps means, which operations change them, and which of
these keep them coherent.  A file is removed under its identifier from both
maps, so the removal of a watched file goes wrong unless its watch descriptor
happens to be its identifier.
-/

namespace Rc2Compute.Files

open Transition

/-- Every entry of either map is an object stored under its own key, and a
watched object is the one cached under its identifier. -/
structure Coherent (fm : FileManager) : Prop where
  byId : ∀ id ptr, fm.filesById[id]? = some ptr →
    ∃ r, ptr = some r ∧ r < fm.nextObject ∧ (fm.objects r).id = id
  byWatch : ∀ wd ptr, fm.filesByWatchDesc[wd]? = some ptr →
    ∃ r, ptr = some r ∧ (fm.objects r).watchDescriptor = wd ∧
      fm.filesById[(fm.objects r).id]? = some (some r)

/-- The object `r` is in neither map any more and every other entry is
untouched. -/
structure RemovedExactly (fm fm' : FileManager) (r : ℕ) : Prop where
  byId : ∀ id : ℤ, fm'.filesById[id]? =
    if fm.filesById[id]? = some (some r) then none else fm.filesById[id]?
  byWatch : ∀ wd : ℤ, fm'.filesByWatchDesc[wd]? =
    if fm.filesByWatchDesc[wd]? = some (some r) then none
    else fm.filesByWatchDesc[wd]?

/-! ## The operations -/

/-- The operations on the two maps, and everything that happens outside of
them. -/
inductive Op where
  | setupInotify (envs : ℤ → Env)
  | watchFile (env : Env) (id : ℤ)
  | inotify (batch : List (Env × InotifyEvent))
  | dbNotification (env : Env) (message : String)
  | findOrAddFile (env : Env) (fname : String)
  | ignoreFSNotesOff
  | outside (disk : Map String Bytes) (inotify : Inotify) (db : Database)

/-- One event of a batch. -/
abbrev eventStep (w : World) (entry : Env × InotifyEvent) : World :=
  (handleEvent entry.1 entry.2 w).2

/-- The state after an operation, however it ended. -/
def step (w : World) : Op → World
  | .setupInotify envs => (setupInotify envs w).2
  | .watchFile env id => ((do watchFile env (← filesByIdIndex id) : Prog Unit) w).2
  | .inotify batch => (handleInotifyEvent batch w).2
  | .dbNotification env message => (processDBNotification env message w).2
  | .findOrAddFile env fname => (findOrAddFile env fname w).2
  | .ignoreFSNotesOff => (handleIgnoreFSNotesOff w).2
  | .outside disk inotify db =>
      { w with disk := disk, inotify := inotify, db := db }

/-- The file an inotify event removes: the watched one, if the database
deletes its row. -/
def removedByEvent (w : World) (entry : Env × InotifyEvent) (r : ℕ) : Prop :=
  entry.2.evtype = IN_DELETE_SELF ∧
    w.fm.filesByWatchDesc[entry.2.wd]? = some (some r) ∧
    (deleteRow entry.1 (w.fm.objects r).id w).1 = .returned true

/-- The file a message removes. -/
def removedByMessage (w : World) (message : String) (r : ℕ) : Prop :=
  ∃ id, parseNotification w.fm.wspaceId message = some ('d', id) ∧
    w.fm.filesById[id]? = some (some r)

/-- Every file an operation removes is removed exactly. -/
def RemovalsExact (w : World) : Op → Prop
  | .inotify batch =>
      w.fm.ignoreFSNotifications = false →
        Along eventStep
          (fun w entry => ∀ r, removedByEvent w entry r →
            RemovedExactly w.fm (eventStep w entry).fm r)
          (windowOpened w) batch
  | .dbNotification env message =>
      ∀ r, removedByMessage w message r →
        RemovedExactly w.fm (step w (.dbNotification env message)).fm r
  | _ => True

/-- What the index promises of a run. -/
def IndexCoherent (w : World) (ops : List Op) : Prop :=
  Coherent (run step w ops).fm ∧ Along step RemovalsExact w ops

/-! ## What the outside promises -/

/-- A new identifier is positive and not in use. -/
def NewIdentifier (env : Env) (w : World) : Prop :=
  0 < env.newId ∧ w.fm.filesById[env.newId]? = none

/-- The database hands out positive identifiers, each once. -/
def UniqueIdentifiers (w : World) : Op → Prop
  | .inotify batch =>
      w.fm.ignoreFSNotifications = false →
        Along eventStep
          (fun w entry => entry.2.evtype = IN_CREATE → NewIdentifier entry.1 w)
          (windowOpened w) batch
  | .dbNotification _ message =>
      ∀ type id, parseNotification w.fm.wspaceId message = some (type, id) →
        0 < id
  | .findOrAddFile env _ => NewIdentifier env w
  | _ => True

/-! ## When the maps stay coherent -/

/-- The descriptor `watchFile` stores. -/
def watchResult (env : Env) : ℤ :=
  if env.fails .inotifyAddWatch then -1 else env.newWd

/-- A file that is watched already gets its old descriptor again. -/
def SameDescriptor (env : Env) (fm : FileManager) (r : ℕ) : Prop :=
  ∀ wd, fm.filesByWatchDesc[wd]? = some (some r) → wd = watchResult env

/-- `watchFile` keeps the index: the file is gone from the disk, or it is
watched under no other descriptor. -/
def WatchSafe (env : Env) (w : World) (r : ℕ) : Prop :=
  env.fails .stat = false → w.disk.contains (w.fm.objects r).path →
    SameDescriptor env w.fm r

/-- The descriptor of an event that looks its file up is one of the watched
files', and a deleted file's identifier is its descriptor unless the database
refuses to delete the row. -/
def EventSafe (w : World) (entry : Env × InotifyEvent) : Prop :=
  let (env, event) := entry
  (event.evtype = IN_CREATE → env.newId < 2 ^ 32) ∧
  (event.evtype = IN_CLOSE_WRITE →
    w.fm.pendingImagesByWatchDesc[event.wd]? = none →
    w.fm.filesByWatchDesc[event.wd]? ≠ none) ∧
  (event.evtype = IN_OPEN ∨ event.evtype = IN_MODIFY →
    w.fm.filesByWatchDesc[event.wd]? ≠ none) ∧
  (event.evtype = IN_DELETE_SELF →
    ∃ r, w.fm.filesByWatchDesc[event.wd]? = some (some r) ∧
      (env.fails .deleteFile = true ∨ (w.fm.objects r).id = event.wd))

/-- The watch entry stored under the identifier of a deleted file is the
file's only watch entry. -/
def DeleteSafe (w : World) (id : ℤ) : Prop :=
  ∀ r, w.fm.filesById[id]? = some (some r) →
    ∀ wd, w.fm.filesByWatchDesc[wd]? = some (some r) ∨
      (wd = id ∧ w.fm.filesByWatchDesc[wd]? ≠ none) →
      wd = id ∧ w.fm.filesByWatchDesc[wd]? = some (some r)

/-- A row that is inserted can be loaded or is cached already, and a cached
file is not watched under another descriptor. -/
def InsertSafe (env : Env) (w : World) (id : ℤ) : Prop :=
  (w.fm.filesById[id]? = none → (loadedRow env w id).isSome) ∧
  ∀ r, w.fm.filesById[id]? = some (some r) →
    env.fails .stat = false →
    (w.disk.contains (w.fm.objects r).path ∨
      ∃ row, loadedRow env w id = some row ∧
        row.name = (w.fm.objects r).path) →
    SameDescriptor env w.fm r

/-- The condition on one operation. -/
def StepSafe (w : World) : Op → Prop
  | .setupInotify envs =>
      ∀ id r, w.fm.filesById[id]? = some (some r) → WatchSafe (envs id) w r
  | .watchFile env id =>
      ∃ r, w.fm.filesById[id]? = some (some r) ∧ WatchSafe env w r
  | .inotify batch =>
      w.fm.ignoreFSNotifications = false →
        Along eventStep EventSafe (windowOpened w) batch
  | .dbNotification env message =>
      ∀ type id, parseNotification w.fm.wspaceId message = some (type, id) →
        (type = 'd' → DeleteSafe w id) ∧ (type = 'i' → InsertSafe env w id)
  | .findOrAddFile env _ => env.newId < 2 ^ 32
  | _ => True

/-! ## Coherent maps under single changes -/

theorem Coherent.of_keepsIndex {w w' : World} (h : Coherent w.fm)
    (hk : KeepsIndex w w') : Coherent w'.fm := by
  refine ⟨fun id ptr hid => ?_, fun wd ptr hwd => ?_⟩
  · rw [hk.byId] at hid
    obtain ⟨r, rfl, hr, hobj⟩ := h.byId id ptr hid
    exact ⟨r, rfl, hr.trans_le hk.nextObject, (hk.id r hr).trans hobj⟩
  · rw [hk.byWatch] at hwd
    obtain ⟨r, rfl, hobj, hfile⟩ := h.byWatch wd ptr hwd
    obtain ⟨r', hr', hlt, -⟩ := h.byId _ _ hfile
    obtain rfl : r = r' := Option.some.inj hr'
    refine ⟨r, rfl, (hk.watchDescriptor r hlt).trans hobj, ?_⟩
    rw [hk.byId, hk.id r hlt, hfile]

theorem Coherent.cached {fm : FileManager} (h : Coherent fm) {id : ℤ}
    {r : ℕ} (hid : fm.filesById[id]? = some (some r)) :
    r < fm.nextObject ∧ (fm.objects r).id = id := by
  obtain ⟨r', hr', hlt, hobj⟩ := h.byId id _ hid
  obtain rfl : r = r' := Option.some.inj hr'
  exact ⟨hlt, hobj⟩

theorem Coherent.watched {fm : FileManager} (h : Coherent fm) {wd : ℤ}
    {r : ℕ} (hwd : fm.filesByWatchDesc[wd]? = some (some r)) :
    (fm.objects r).watchDescriptor = wd ∧
      fm.filesById[(fm.objects r).id]? = some (some r) := by
  obtain ⟨r', hr', hobj, hfile⟩ := h.byWatch wd _ hwd
  obtain rfl : r = r' := Option.some.inj hr'
  exact ⟨hobj, hfile⟩

/-- A new object may enter `filesById` under its own, unused identifier. -/
theorem Coherent.insertFile {fm : FileManager} (h : Coherent fm) {id : ℤ}
    {r : ℕ} (hr : r < fm.nextObject) (hid : (fm.objects r).id = id)
    (hnew : fm.filesById[id]? = none) {files : Map ℤ DBFileInfoPtr}
    (hfiles : ∀ k : ℤ, files[k]? =
      if id = k then some (some r) else fm.filesById[k]?) :
    Coherent { fm with filesById := files } := by
  refine ⟨fun k ptr hk => ?_, fun wd ptr hwd => ?_⟩
  · rw [hfiles] at hk
    split at hk
    next heq =>
      cases hk
      exact ⟨r, rfl, hr, hid.trans heq⟩
    next => exact h.byId k ptr hk
  · obtain ⟨r', rfl, hobj, hfile⟩ := h.byWatch wd ptr hwd
    refine ⟨r', rfl, hobj, ?_⟩
    have hne : id ≠ (fm.objects r').id := by
      rintro rfl
      rw [hnew] at hfile
      cases hfile
    rw [hfiles, if_neg hne]
    exact hfile

/-- An object outside `filesById` is not watched. -/
theorem Coherent.not_watched {fm : FileManager} (h : Coherent fm) {r : ℕ}
    (hnew : fm.filesById[(fm.objects r).id]? = none) (wd : ℤ) :
    fm.filesByWatchDesc[wd]? ≠ some (some r) := by
  intro hwd
  rw [(h.watched hwd).2] at hnew
  cases hnew

/-- A cached object gets a descriptor and an entry under it. -/
theorem Coherent.watchFile {fm : FileManager} (h : Coherent fm) {id wd : ℤ}
    {r : ℕ} (hr : fm.filesById[id]? = some (some r))
    (hsame : ∀ k, fm.filesByWatchDesc[k]? = some (some r) → k = wd)
    {watches : Map ℤ DBFileInfoPtr}
    (hwatches : ∀ (k : ℤ) (ptr : DBFileInfoPtr), watches[k]? = some ptr →
      (k = wd ∧ ptr = some r) ∨ fm.filesByWatchDesc[k]? = some ptr) :
    Coherent
      { fm with
        objects := Function.update fm.objects r
          { fm.objects r with watchDescriptor := wd }
        filesByWatchDesc := watches } := by
  have hid : ∀ k, (Function.update fm.objects r
      { fm.objects r with watchDescriptor := wd } k).id =
        (fm.objects k).id := by
    intro k
    by_cases hk : k = r
    · subst hk
      simp
    · simp [hk]
  refine ⟨fun k ptr hk => ?_, fun k ptr hk => ?_⟩
  · obtain ⟨r', rfl, hlt, hobj⟩ := h.byId k ptr hk
    exact ⟨r', rfl, hlt, (hid r').trans hobj⟩
  · rcases hwatches k ptr hk with ⟨rfl, rfl⟩ | hold
    · refine ⟨r, rfl, by simp, ?_⟩
      dsimp only
      rw [hid, (h.cached hr).2]
      exact hr
    · obtain ⟨r', rfl, hobj, hfile⟩ := h.byWatch k ptr hold
      refine ⟨r', rfl, ?_, ?_⟩
      · by_cases hk : r' = r
        · subst hk
          simpa using (hsame k hold).symm
        · simpa [hk] using hobj
      · dsimp only
        rw [hid]
        exact hfile

/-- The exact removal of a file keeps the maps coherent. -/
theorem Coherent.removed {fm fm' : FileManager} (h : Coherent fm) {r : ℕ}
    (hobj : fm'.objects = fm.objects) (hnext : fm'.nextObject = fm.nextObject)
    (hr : RemovedExactly fm fm' r) : Coherent fm' := by
  refine ⟨fun id ptr hid => ?_, fun wd ptr hwd => ?_⟩
  · rw [hr.byId] at hid
    split at hid
    next => cases hid
    next =>
      rw [hobj, hnext]
      exact h.byId id ptr hid
  · rw [hr.byWatch] at hwd
    split at hwd
    next => cases hwd
    next hne =>
      obtain ⟨r', rfl, hdesc, hfile⟩ := h.byWatch wd ptr hwd
      have hr' : r' ≠ r := by
        rintro rfl
        exact hne hwd
      refine ⟨r', rfl, by rw [hobj, hdesc], ?_⟩
      rw [hobj, hr.byId, hfile, if_neg (by simpa using hr')]

/-! ## The functions that add or watch a file -/

/-- A new object changes no entry and none of the objects before it. -/
theorem newDBFileInfo_spec (env : Env) (anId aVersion : ℤ) (aName : String)
    (w : World) :
    Act.wp (newDBFileInfo env anId aVersion aName)
      (fun ptr w' => KeepsIndex w w' ∧ w'.disk = w.disk ∧ w'.db = w.db ∧
        ptr = some w.fm.nextObject ∧ w.fm.nextObject < w'.fm.nextObject ∧
        (w'.fm.objects w.fm.nextObject).id = toUInt32 anId)
      (fun _ _ => False) w := by
  refine Act.wp_of_apply rfl ⟨⟨rfl, rfl, Nat.le_succ _, ?_, ?_⟩, rfl, rfl,
    rfl, Nat.lt_succ_self _, by simp⟩
  · intro r hr
    simp [hr.ne]
  · intro r hr
    simp [hr.ne]

/-- Where the driver cannot quote its name, no file enters the cache. -/
theorem insertDBFile_keepsIndex_of_unquotable {env : Env}
    (h : env.fails .escapeLiteral = true) (fname : String) :
    Act.Keeps KeepsIndex (insertDBFile env fname) := by
  have hcreated : ∀ id, Act.Keeps KeepsIndex (newDBFileInfo env id 1 fname) :=
    fun id w => ((newDBFileInfo_spec env id 1 fname w).mono
      (fun _ _ h => h.1) fun _ _ h => h.elim).final
  refine .ensuring (.bind (beginTransaction_keepsIndex env).keeps fun _ => ?_)
    rollback_keepsIndex
  exact (longFromQuery_keepsIndex env _ _).keeps.bind fun _ =>
    (hcreated _).bind fun _ =>
    (insertRows_keeps_of_unquotable h fname _).bind_of_stops
      (insertRows_stops_of_unquotable h fname _) _

/-- A stored file is cached under its identifier and not watched yet. -/
theorem insertDBFile_coherent {env : Env} {w : World} (fname : String)
    (hquoted : env.fails .escapeLiteral = false) (hw : Coherent w.fm)
    (hnew : NewIdentifier env w) (hlt : env.newId < 2 ^ 32) :
    Act.wp (insertDBFile env fname)
      (fun fid w' => Coherent w'.fm ∧ fid = env.newId ∧
        ∃ r, w'.fm.filesById[fid]? = some (some r) ∧
          ∀ wd : ℤ, w'.fm.filesByWatchDesc[wd]? ≠ some (some r))
      (fun _ w' => Coherent w'.fm) w := by
  have hid : toUInt32 env.newId = env.newId :=
    toUInt32_of_lt hnew.1.le hlt
  simp only [insertDBFile, withTransaction, Act.wp_ensuring, Act.wp_bind]
  refine (beginTransaction_keepsIndex env w).mono (fun _ w₁ h₁ => ?_)
    fun _ w₁ h₁ => (hw.of_keepsIndex h₁).of_keepsIndex (rollback_keepsIndex _)
  refine wp_longFromQuery (fun _ _ =>
    (hw.of_keepsIndex h₁).of_keepsIndex (rollback_keepsIndex _)) fun _ => ?_
  refine (newDBFileInfo_spec env env.newId 1 fname w₁).mono ?_
    fun _ _ h => h.elim
  rintro _ w₂ ⟨h₂, -, -, rfl, hlt₂, hobj₂⟩
  refine (insertRows_keepsIndex hquoted fname env.newId w₂).mono
    (fun _ w₃ h₃ => ?_)
    fun _ w₃ h₃ => (((hw.of_keepsIndex h₁).of_keepsIndex h₂).of_keepsIndex
      h₃).of_keepsIndex (rollback_keepsIndex _)
  have hw₃ := ((hw.of_keepsIndex h₁).of_keepsIndex h₂).of_keepsIndex h₃
  have hnone : w₃.fm.filesById[env.newId]? = none := by
    rw [h₃.byId, h₂.byId, h₁.byId]
    exact hnew.2
  have hobj₃ : (w₃.fm.objects w₁.fm.nextObject).id = env.newId := by
    rw [h₃.id _ hlt₂, hobj₂, hid]
  have hfiles : ∀ k : ℤ,
      (w₃.fm.filesById.insertIfNew env.newId
        (some w₁.fm.nextObject))[k]? =
        if env.newId = k then some (some w₁.fm.nextObject)
        else w₃.fm.filesById[k]? := by
    intro k
    exact Map.getElem?_insertIfNew_of_none _ _ hnone
  refine ⟨hw₃.insertFile (hlt₂.trans_le h₃.nextObject) hobj₃ hnone hfiles,
    rfl, w₁.fm.nextObject, ?_, ?_⟩
  · exact (hfiles env.newId).trans (if_pos rfl)
  · intro wd
    exact hw₃.not_watched (by rw [hobj₃, hnone]) wd

/-- What watching the file `r` leaves: coherent maps, the same files, and
the watch entries of the other files. -/
structure Rewatched (env : Env) (w w' : World) (r : ℕ) : Prop where
  coherent : Coherent w'.fm
  self : WatchSafe env w' r
  byId : w'.fm.filesById = w.fm.filesById
  disk : w'.disk = w.disk
  path : ∀ k, (w'.fm.objects k).path = (w.fm.objects k).path
  others : ∀ (wd : ℤ) (k : ℕ), k ≠ r →
    w'.fm.filesByWatchDesc[wd]? = some (some k) →
    w.fm.filesByWatchDesc[wd]? = some (some k)

theorem inotify_add_watch_spec (env : Env) (path : String) (mask : UInt32)
    (w : World) :
    Act.wp (inotify_add_watch env path mask)
      (fun wd w' => wd = watchResult env ∧ w'.fm = w.fm ∧ w'.disk = w.disk)
      (fun _ _ => False) w := by
  unfold inotify_add_watch watchResult
  split
  · exact ⟨rfl, rfl, rfl⟩
  · exact ⟨rfl, rfl, rfl⟩

theorem watchFile_rewatched {env : Env} {w : World} {id : ℤ} {r : ℕ}
    (hw : Coherent w.fm) (hr : w.fm.filesById[id]? = some (some r))
    (hsafe : WatchSafe env w r) :
    Act.wp (watchFile env (some r))
      (fun _ w' => Rewatched env w w' r) (fun _ w' => Rewatched env w w' r) w := by
  simp only [watchFile, statFails, Act.wp_bind, Act.wp_get, Act.wp_pure,
    Act.wp_throwIf]
  refine Act.wp_of_apply (load_some r w) ⟨fun _ => ?_, fun hstat => ?_⟩
  · exact ⟨hw, hsafe, rfl, rfl, fun _ => rfl, fun _ _ _ h => h⟩
  · have hsame : SameDescriptor env w.fm r := by
      simp only [Bool.or_eq_true, not_or, Bool.not_eq_true,
        Bool.not_eq_false'] at hstat
      exact hsafe hstat.1 hstat.2
    have hpath : ∀ wd k, (Function.update w.fm.objects r
        { w.fm.objects r with watchDescriptor := wd } k).path =
          (w.fm.objects k).path := by
      intro wd k
      by_cases hk : k = r
      · subst hk
        simp
      · simp [hk]
    refine (inotify_add_watch_spec env _ fileMask w).mono ?_
      fun _ _ h => h.elim
    rintro wd w₁ ⟨rfl, hfm, hdisk⟩
    refine Act.wp_of_apply (store_some r _ w₁) ⟨fun _ => ?_, fun _ => ?_⟩
    · rw [World.setObject, hfm]
      exact ⟨hw.watchFile hr hsame fun _ _ h => Or.inr h,
        fun _ _ => hsame, rfl, hdisk, hpath _, fun _ _ _ h => h⟩
    · rw [World.setObject, hfm]
      refine ⟨hw.watchFile hr hsame fun k ptr hk => ?_, fun _ _ k hk => ?_,
        rfl, hdisk, hpath _, fun k r' hne hk => ?_⟩
      · rw [Map.getElem?_insert] at hk
        split at hk
        next heq => exact Or.inl ⟨heq.symm, (Option.some.inj hk).symm⟩
        next => exact Or.inr hk
      · rw [Map.getElem?_insert] at hk
        split at hk
        next heq => exact heq.symm
        next => exact hsame k hk
      · rw [Map.getElem?_insert] at hk
        split at hk
        next => exact absurd (Option.some.inj (Option.some.inj hk)).symm hne
        next => exact hk

/-- A row enters the cache as a change of the cached object or as a new
object nobody watches. -/
theorem cacheFile_coherent (env : Env) {row : FetchedFile} {w : World}
    (hw : Coherent w.fm) :
    Act.wp (cacheFile env row)
      (fun _ w' => Coherent w'.fm ∧ w'.disk = w.disk ∧ w'.db = w.db ∧
        w'.fm.filesByWatchDesc = w.fm.filesByWatchDesc ∧
        ∃ r, w'.fm.filesById[toUInt32 row.id]? = some (some r) ∧
          (w.fm.filesById[toUInt32 row.id]? = some (some r) ∧
              (w'.fm.objects r).path = (w.fm.objects r).path ∨
            w.fm.filesById[toUInt32 row.id]? = none ∧
              ∀ wd : ℤ, w'.fm.filesByWatchDesc[wd]? ≠ some (some r)))
      (fun _ _ => False) w := by
  simp only [cacheFile, Act.wp_bind, Act.wp_get]
  cases hcached : w.fm.filesById[toUInt32 row.id]? with
  | some ptr =>
      obtain ⟨r, rfl, -⟩ := hw.byId _ _ hcached
      refine Act.wp_of_apply (store_some r _ w)
        ⟨hw.of_keepsIndex (setObject_keepsIndex rfl rfl), rfl, rfl, rfl, r,
          hcached, Or.inl ⟨rfl, ?_⟩⟩
      simp [World.setObject]
  | none =>
      simp only [Act.wp_bind, Act.wp_modify]
      refine (newDBFileInfo_spec env _ _ row.name w).mono ?_
        fun _ _ h => h
      rintro _ w₁ ⟨h₁, hdisk, hdb, rfl, hlt, hobj⟩
      have hid : (w₁.fm.objects w.fm.nextObject).id = toUInt32 row.id := by
        rw [hobj, toUInt32, toUInt32, Int.emod_emod_of_dvd _ dvd_rfl]
      have hnone : w₁.fm.filesById[toUInt32 row.id]? = none := by
        rw [h₁.byId, hcached]
      have hw₁ := hw.of_keepsIndex h₁
      refine ⟨hw₁.insertFile hlt hid hnone fun k =>
          Map.getElem?_insert _ _ _ _, hdisk, hdb, h₁.byWatch,
        w.fm.nextObject,
        Map.getElem?_insert_self _ _ _, Or.inr ⟨trivial, fun wd => ?_⟩⟩
      exact hw₁.not_watched (by rw [hid, hnone]) wd

theorem setupInotify_coherent {envs : ℤ → Env} {w : World}
    (hw : Coherent w.fm)
    (hsafe : ∀ (id : ℤ) (r : ℕ), w.fm.filesById[id]? = some (some r) →
      WatchSafe (envs id) w r) :
    Act.wp (setupInotify envs)
      (fun _ w' => Coherent w'.fm) (fun _ w' => Coherent w'.fm) w := by
  let I : World → Prop := fun w' => Coherent w'.fm ∧
    w'.fm.filesById = w.fm.filesById ∧
    ∀ (id : ℤ) (r : ℕ), w'.fm.filesById[id]? = some (some r) →
      WatchSafe (envs id) w' r
  have hloop : Act.wp (setupInotify envs) (fun _ => I) (fun _ => I) w := by
    simp only [setupInotify, Act.wp_bind, Act.wp_get]
    refine Act.wp_forEach ?_ ⟨hw, rfl, hsafe⟩
    rintro ⟨id, ptr⟩ hentry w₁ ⟨hw₁, hfiles, hsafe₁⟩
    have hid : w₁.fm.filesById[id]? = some ptr := by
      rw [hfiles]
      exact (Map.mem_toList _).mp hentry
    obtain ⟨r, rfl, -, hobj⟩ := hw₁.byId id ptr hid
    -- watching one file leaves the others as safe to watch as before
    have hkeep : ∀ w₂, Rewatched (envs id) w₁ w₂ r → I w₂ := by
      intro w₂ h₂
      refine ⟨h₂.coherent, h₂.byId.trans hfiles, fun id' r' hid' => ?_⟩
      rw [h₂.byId] at hid'
      by_cases hr : r' = r
      · subst hr
        obtain rfl : id' = id := (hw₁.cached hid').2.symm.trans hobj
        exact h₂.self
      · intro hstat hdisk wd hwd
        rw [h₂.disk, h₂.path] at hdisk
        exact hsafe₁ id' r' hid' hstat hdisk wd (h₂.others wd r' hr hwd)
    rw [Act.wp_tryCatch]
    refine (watchFile_rewatched hw₁ hid (hsafe₁ id r hid)).mono
      (fun _ w₂ h₂ => hkeep w₂ h₂) fun e w₂ h₂ => ?_
    split
    · exact hkeep w₂ h₂
    · exact hkeep w₂ h₂
  exact hloop.mono (fun _ _ h => h.1) fun _ _ h => h.1

/-! ## Events -/

theorem Coherent.entries_some {fm : FileManager} (h : Coherent fm) :
    ∀ entry ∈ fm.filesById.toList, ∃ r, entry.2 = some r := by
  rintro ⟨id, ptr⟩ hentry
  obtain ⟨r, hr, -⟩ := h.byId id ptr ((Map.mem_toList _).mp hentry)
  exact ⟨r, hr⟩

theorem fileExistsWithName_keepsIndex (fname : String) {w : World}
    (hw : Coherent w.fm) :
    Act.wp (fileExistsWithName fname)
      (fun _ w' => KeepsIndex w w') (fun _ w' => KeepsIndex w w') w := by
  simp only [fileExistsWithName, Act.wp_bind, Act.wp_get]
  exact (findByName_keepsIndex fname hw.entries_some w).mono
    (fun _ _ h => h) fun _ _ h => h

theorem filesByIdIndex_of_some {w : World} {id : ℤ} {ptr : DBFileInfoPtr}
    (h : w.fm.filesById[id]? = some ptr) :
    filesByIdIndex id w = (.returned ptr, w) := by
  rw [filesByIdIndex, h]

theorem filesByWatchDescIndex_of_some {w : World} {wd : ℤ}
    {ptr : DBFileInfoPtr} (h : w.fm.filesByWatchDesc[wd]? = some ptr) :
    filesByWatchDescIndex wd w = (.returned ptr, w) := by
  rw [filesByWatchDescIndex, h]

theorem handleCreate_keepsIndex_of_unquotable {env : Env}
    (h : env.fails .escapeLiteral = true) (event : InotifyEvent) :
    Act.Keeps KeepsIndex (handleCreate env event) := by
  unfold handleCreate
  refine .ite (.pure _) ?_
  split
  · exact (startImageWatch_keepsIndex env event.name _).keeps
  refine Act.Keeps.get.bind fun w => .ite (.pure _) ?_
  refine (fileExistsWithName_keeps event.name).bind fun found =>
    .ite (.pure _) ?_
  exact (insertDBFile_keepsIndex_of_unquotable h event.name).bind_of_stops
    (insertDBFile_stops_of_unquotable h event.name) _

/-- However the branch ends, the maps are coherent. -/
theorem handleCreate_coherent {env : Env} {w : World}
    (event : InotifyEvent) (hw : Coherent w.fm) (hnew : NewIdentifier env w)
    (hlt : env.newId < 2 ^ 32) :
    Coherent (handleCreate env event w).2.fm := by
  by_cases hquoted : env.fails .escapeLiteral = true
  · exact hw.of_keepsIndex
      (handleCreate_keepsIndex_of_unquotable hquoted event w)
  rw [Bool.not_eq_true] at hquoted
  suffices h : Act.wp (handleCreate env event)
      (fun _ w' => Coherent w'.fm) (fun _ w' => Coherent w'.fm) w from h.final
  unfold handleCreate
  split
  · exact hw
  split
  · exact (startImageWatch_keepsIndex env event.name _ w).mono
      (fun _ _ h => hw.of_keepsIndex h) fun _ _ h => hw.of_keepsIndex h
  rw [Act.wp_bind, Act.wp_get]
  beta_reduce
  split
  · exact hw
  rw [Act.wp_bind]
  refine (fileExistsWithName_keepsIndex event.name hw).mono
    (fun found w₁ h₁ => ?_) fun _ _ h₁ => hw.of_keepsIndex h₁
  have hw₁ := hw.of_keepsIndex h₁
  split
  · exact hw₁
  rw [Act.wp_bind]
  have hnew₁ : NewIdentifier env w₁ := ⟨hnew.1, by rw [h₁.byId, hnew.2]⟩
  refine (insertDBFile_coherent event.name hquoted hw₁ hnew₁ hlt).mono ?_
    fun _ _ h => h
  rintro fid w₂ ⟨hw₂, -, r, hr, hunwatched⟩
  split
  · rw [Act.wp_bind]
    refine Act.wp_of_apply (filesByIdIndex_of_some hr) ?_
    exact (watchFile_rewatched hw₂ hr
      fun _ _ wd hwd => absurd hwd (hunwatched wd)).mono
      (fun _ _ h => h.coherent) fun _ _ h => h.coherent
  · exact hw₂

theorem handleCloseWrite_coherent {env : Env} {event : InotifyEvent}
    {w : World} (hw : Coherent w.fm)
    (hknown : w.fm.pendingImagesByWatchDesc[event.wd]? = none →
      w.fm.filesByWatchDesc[event.wd]? ≠ none) :
    Act.wp (handleCloseWrite env event)
      (fun _ w' => Coherent w'.fm) (fun _ w' => Coherent w'.fm) w := by
  simp only [handleCloseWrite, Act.wp_bind, Act.wp_get]
  split
  next image _ =>
    have hmoves : Act.Moves KeepsIndex
        (do insertImage env image.fileName image.imgNumStr
            stopImageWatch event.wd) :=
      (insertImage_keepsIndex env _ _).bind fun _ =>
        stopImageWatch_keepsIndex event.wd
    exact (hmoves w).mono (fun _ _ h => hw.of_keepsIndex h)
      fun _ _ h => hw.of_keepsIndex h
  next hpending =>
    obtain ⟨ptr, hptr⟩ := Option.ne_none_iff_exists'.mp (hknown hpending)
    obtain ⟨r, rfl, -⟩ := hw.byWatch _ ptr hptr
    rw [Act.wp_bind]
    refine Act.wp_of_apply (filesByWatchDescIndex_of_some hptr) ?_
    rw [Act.wp_bind]
    refine Act.wp_of_apply (load_some r w) ?_
    exact (updateDBFile_keepsIndex env r w).mono
      (fun _ _ h => hw.of_keepsIndex h) fun _ _ h => hw.of_keepsIndex h

theorem handleLogged_coherent {event : InotifyEvent} {w : World}
    (hw : Coherent w.fm)
    (hknown : w.fm.filesByWatchDesc[event.wd]? ≠ none) :
    Act.wp (handleLogged event)
      (fun _ w' => Coherent w'.fm) (fun _ w' => Coherent w'.fm) w := by
  obtain ⟨ptr, hptr⟩ := Option.ne_none_iff_exists'.mp hknown
  obtain ⟨r, rfl, -⟩ := hw.byWatch _ ptr hptr
  rw [handleLogged, Act.wp_bind]
  refine Act.wp_of_apply (filesByWatchDescIndex_of_some hptr) ?_
  rw [Act.wp_bind]
  exact Act.wp_of_apply (load_some r w) hw

/-- The two outcomes of a delete event: the row stays and one watch entry
goes, or the file goes from both maps under its identifier. -/
theorem handleDeleteSelf_spec {env : Env} {event : InotifyEvent} {w : World}
    {r : ℕ} (hr : w.fm.filesByWatchDesc[event.wd]? = some (some r)) :
    let id := (w.fm.objects r).id
    let watches := w.fm.filesByWatchDesc.erase id
    Act.wp (handleDeleteSelf env event)
      (fun _ w' =>
        if (deleteRow env id w).1 = .returned true then
          w'.fm = { w.fm with
            filesById := w.fm.filesById.erase id
            filesByWatchDesc := watches }
        else w'.fm = { w.fm with filesByWatchDesc := watches })
      (fun _ _ => False) w := by
  intro id watches
  obtain ⟨ok, db, hdelete⟩ :=
    executeQuery_returns env .deleteFile
      (fun t => some { t with rcfile := t.rcfile.erase id }) w
  have hrow : deleteRow env id w = (.returned ok, { w with db := db }) :=
    hdelete
  simp only [handleDeleteSelf, removeDBFile, Act.wp_bind]
  refine Act.wp_of_apply (filesByWatchDescIndex_of_some hr) ?_
  refine Act.wp_of_apply (load_some r w) ?_
  refine Act.wp_of_apply (load_some r w) ?_
  refine Act.wp_of_apply hrow ?_
  rw [hrow]
  cases ok with
  | true =>
      refine Act.wp_of_apply rfl (Act.wp_of_apply rfl ?_)
      exact (inotify_rm_watch_spec event.wd _).mono
        (fun _ _ h => by simpa using h.1) fun _ _ h => h
  | false =>
      refine Act.wp_of_apply rfl (Act.wp_of_apply rfl ?_)
      exact (inotify_rm_watch_spec event.wd _).mono
        (fun _ _ h => by simpa using h.1) fun _ _ h => h

theorem removedExactly_erase {fm : FileManager} (hfm : Coherent fm)
    {id : ℤ} {r : ℕ} (hr : fm.filesById[id]? = some (some r))
    (hwatch : ∀ wd : ℤ, fm.filesByWatchDesc[wd]? = some (some r) → wd = id)
    (hkey : ∀ ptr, fm.filesByWatchDesc[id]? = some ptr → ptr = some r) :
    RemovedExactly fm
      { fm with
        filesById := fm.filesById.erase id
        filesByWatchDesc := fm.filesByWatchDesc.erase id } r := by
  refine ⟨fun k => ?_, fun k => ?_⟩
  · rw [Map.getElem?_erase]
    by_cases hk : id = k
    · subst hk
      simp [hr]
    · have hne : fm.filesById[k]? ≠ some (some r) := by
        intro h
        exact hk ((hfm.cached hr).2.symm.trans (hfm.cached h).2)
      rw [if_neg hk, if_neg hne]
  · rw [Map.getElem?_erase]
    by_cases hk : id = k
    · subst hk
      rw [if_pos rfl]
      cases hwd : fm.filesByWatchDesc[id]? with
      | none => simp
      | some ptr => simp [hkey ptr hwd]
    · have hne : fm.filesByWatchDesc[k]? ≠ some (some r) :=
        fun h => hk (hwatch k h).symm
      rw [if_neg hk, if_neg hne]

/-- Fewer watch entries are coherent too. -/
theorem Coherent.eraseWatch {fm : FileManager} (h : Coherent fm) (wd : ℤ) :
    Coherent
      { fm with filesByWatchDesc := fm.filesByWatchDesc.erase wd } := by
  refine ⟨h.byId, fun k ptr hk => ?_⟩
  rw [Map.getElem?_erase] at hk
  split at hk
  next => cases hk
  next => exact h.byWatch k ptr hk

theorem deleteRow_fails {env : Env} {id : ℤ} {w : World}
    (hfails : env.fails .deleteFile = true) :
    (deleteRow env id w).1 ≠ .returned true := by
  unfold deleteRow executeQuery
  rw [hfails]
  rcases w.db.transaction with _ | _ | t <;> simp

theorem handleDeleteSelf_coherent {env : Env} {event : InotifyEvent}
    {w : World} {r : ℕ} (hw : Coherent w.fm)
    (hr : w.fm.filesByWatchDesc[event.wd]? = some (some r))
    (hsafe : env.fails .deleteFile = true ∨
      (w.fm.objects r).id = event.wd) :
    Act.wp (handleDeleteSelf env event)
      (fun _ w' => Coherent w'.fm ∧
        ((deleteRow env (w.fm.objects r).id w).1 = .returned true →
          RemovedExactly w.fm w'.fm r))
      (fun _ _ => False) w := by
  refine (handleDeleteSelf_spec hr).mono (fun _ w' h => ?_) fun _ _ h => h
  split at h
  next hok =>
    have hid : (w.fm.objects r).id = event.wd :=
      hsafe.resolve_left fun hfails => deleteRow_fails hfails hok
    have hremoved : RemovedExactly w.fm w'.fm r := by
      rw [h]
      refine removedExactly_erase hw (hw.watched hr).2 (fun wd hwd => ?_)
        fun ptr hptr => ?_
      · rw [hid, ← (hw.watched hwd).1, (hw.watched hr).1]
      · rw [hid, hr] at hptr
        exact (Option.some.inj hptr).symm
    refine ⟨hw.removed ?_ ?_ hremoved, fun _ => hremoved⟩
    · rw [h]
    · rw [h]
  next hok =>
    rw [h]
    exact ⟨hw.eraseWatch _, fun h => absurd h hok⟩

theorem IN_CREATE_ne : IN_CREATE ≠ IN_CLOSE_WRITE ∧
    IN_CREATE ≠ IN_DELETE_SELF ∧ IN_CLOSE_WRITE ≠ IN_DELETE_SELF := by
  decide

/-- However the handling of a safe event ends, the maps are coherent and a
removed file is removed exactly. -/
theorem handleEvent_coherent {w : World} {entry : Env × InotifyEvent}
    (hw : Coherent w.fm)
    (hnew : entry.2.evtype = IN_CREATE → NewIdentifier entry.1 w)
    (hsafe : EventSafe w entry) :
    Coherent (eventStep w entry).fm ∧
      ∀ r, removedByEvent w entry r →
        RemovedExactly w.fm (eventStep w entry).fm r := by
  obtain ⟨env, event⟩ := entry
  obtain ⟨hcreate, hclose, hlogged, hdelete⟩ := hsafe
  let P : World → Prop := fun w' => Coherent w'.fm ∧
    ∀ r, removedByEvent w (env, event) r → RemovedExactly w.fm w'.fm r
  have hkeep : ∀ w' : World, event.evtype ≠ IN_DELETE_SELF →
      Coherent w'.fm → P w' :=
    fun w' hne hw' => ⟨hw', fun r hr => absurd hr.1 hne⟩
  by_cases htype : event.evtype = IN_CREATE
  · have hne : event.evtype ≠ IN_DELETE_SELF := htype ▸ IN_CREATE_ne.2.1
    refine hkeep _ hne ?_
    rw [eventStep, handleEvent, Act.tryCatch_pure_state, if_pos htype]
    exact handleCreate_coherent event hw (hnew htype) (hcreate htype)
  suffices h : Act.wp (handleEvent env event) (fun _ => P)
      (fun _ _ => False) w from
    (h.mono (fun _ _ h => h) fun _ _ h => h.elim).final
  simp only [handleEvent, Act.wp_tryCatch, Act.wp_pure]
  rw [if_neg htype]
  split
  next htype =>
    have hne : event.evtype ≠ IN_DELETE_SELF := htype ▸ IN_CREATE_ne.2.2
    exact (handleCloseWrite_coherent hw (hclose htype)).mono
      (fun _ w' h => hkeep w' hne h) fun _ w' h => hkeep w' hne h
  split
  next htype =>
    obtain ⟨r, hr, hid⟩ := hdelete htype
    refine (handleDeleteSelf_coherent hw hr hid).mono (fun _ w' h => ?_)
      fun _ _ h => h.elim
    refine ⟨h.1, fun r' hr' => ?_⟩
    obtain rfl : r' = r := by
      have hr'' := hr'.2.1.symm.trans hr
      exact Option.some.inj (Option.some.inj hr'')
    exact h.2 hr'.2.2
  next hne =>
    split
    next htype =>
      exact (handleLogged_coherent hw (hlogged htype)).mono
        (fun _ w' h => hkeep w' hne h) fun _ w' h => hkeep w' hne h
    next => exact hkeep w hne hw

/-! ## Messages -/

/-- A message to delete a cached file erases its identifier from both maps,
whatever happens to the file on disk. -/
theorem processDelete_spec {env : Env} {w : World} {id : ℤ} {r : ℕ}
    (hr : w.fm.filesById[id]? = some (some r)) :
    Act.wp (processDelete env id)
      (fun _ w' => w'.fm = { w.fm with
        filesById := w.fm.filesById.erase id
        filesByWatchDesc := w.fm.filesByWatchDesc.erase id })
      (fun _ _ => False) w := by
  simp only [processDelete, Act.wp_tryCatch, Act.wp_bind, Act.wp_get, hr,
    Act.wp_modify, Act.wp_throwIf, Act.wp_pure, removeFile_fm]
  refine Act.wp_of_apply (load_some r w) ?_
  refine (inotify_rm_watch_spec _ w).mono (fun _ w₁ h₁ => ?_)
    fun _ _ h => h.elim
  rw [h₁.1]
  exact ⟨fun _ => rfl, fun _ => rfl⟩

/-- A message to delete an unknown file does nothing. -/
theorem processDelete_of_none {env : Env} {w : World} {id : ℤ}
    (hnone : w.fm.filesById[id]? = none) :
    processDelete env id w = (.returned (), w) := by
  simp only [processDelete, Act.tryCatch_apply, Act.bind_apply,
    Act.get_apply, hnone, Act.throw_apply, Act.pure_apply]

theorem processDelete_coherent {env : Env} {w : World} {id : ℤ}
    (hw : Coherent w.fm) (hsafe : DeleteSafe w id) :
    Act.wp (processDelete env id)
      (fun _ w' => Coherent w'.fm ∧
        ∀ r, w.fm.filesById[id]? = some (some r) →
          RemovedExactly w.fm w'.fm r)
      (fun _ _ => False) w := by
  cases hid : w.fm.filesById[id]? with
  | none =>
      refine Act.wp_of_apply (processDelete_of_none hid) ⟨hw, fun r hr => ?_⟩
      cases hr
  | some ptr =>
      obtain ⟨r, rfl, -⟩ := hw.byId id ptr hid
      refine (processDelete_spec hid).mono (fun _ w' h => ?_)
        fun _ _ h => h
      have hremoved : RemovedExactly w.fm w'.fm r := by
        rw [h]
        refine removedExactly_erase hw hid (fun wd hwd => ?_)
          fun ptr hptr => ?_
        · exact (hsafe r hid wd (Or.inl hwd)).1
        · have hkey := hsafe r hid id (Or.inr ⟨rfl, by simp [hptr]⟩)
          exact Option.some.inj (hptr.symm.trans hkey.2)
      refine ⟨hw.removed (by rw [h]) (by rw [h]) hremoved, fun r' hr' => ?_⟩
      obtain rfl : r = r' := Option.some.inj (Option.some.inj hr')
      exact hremoved

theorem loadFile_coherent (env : Env) (row : FetchedFile) {w : World}
    (hw : Coherent w.fm) :
    Act.wp (loadFile env row)
      (fun _ w' => Coherent w'.fm ∧ w'.db = w.db) (fun _ _ => False) w := by
  simp only [loadFile, Act.wp_bind, Act.wp_modify]
  refine (cacheFile_coherent env hw).mono (fun _ w' h => ?_) fun _ _ h => h
  split
  · exact ⟨h.1, h.2.2.1⟩
  · exact ⟨h.1, h.2.2.1⟩

/-- Loading keeps the maps coherent and leaves the database alone. -/
theorem loadFiles_coherent (env : Env) (whereClause : ℤ → FileRow → Bool)
    {w : World} (hw : Coherent w.fm) :
    Act.wp (loadFiles env whereClause)
      (fun _ w' => Coherent w'.fm ∧ w'.db = w.db) (fun _ _ => False) w := by
  simp only [loadFiles, Act.wp_bind, Act.wp_get]
  split
  · exact ⟨hw, rfl⟩
  · refine Act.wp_forEach (fun row _ w₁ h₁ => ?_) ⟨hw, rfl⟩
    exact (loadFile_coherent env row h₁.1).mono
      (fun _ _ h => ⟨h.1, h.2.trans h₁.2⟩) fun _ _ h => h

/-- A message about a changed file keeps the maps coherent and leaves the
database alone. -/
theorem processUpdate_coherent {env : Env} {w : World} {id : ℤ}
    (hw : Coherent w.fm) :
    Act.wp (processUpdate env id)
      (fun _ w' => Coherent w'.fm ∧ w'.db = w.db) (fun _ _ => False) w := by
  simp only [processUpdate, Act.wp_bind, Act.wp_get]
  split
  · rw [Act.wp_bind]
    refine Act.wp_of_apply (ignoreFSNotifications_apply w) ?_
    have hload := loadFiles_coherent env (whereId id)
      (hw.of_keepsIndex (windowOpened_keepsIndex w))
    rw [windowOpened_db] at hload
    exact hload
  · exact ⟨hw, rfl⟩

theorem toUInt32_of_fits {row : FetchedFile} (hfits : row.fits = true)
    (hid : 0 < row.id) : toUInt32 row.id = row.id := by
  simp only [FetchedFile.fits, fitsInt4, Bool.and_eq_true,
    decide_eq_true_eq] at hfits
  exact toUInt32_of_lt hid.le (by omega)

/-- A load that brings a row in leaves its file cached and safe to watch. -/
theorem loadFile_watchSafe {env : Env} {row : FetchedFile} {w : World}
    (hw : Coherent w.fm) (hid : toUInt32 row.id = row.id)
    (hsafe : ∀ r, w.fm.filesById[row.id]? = some (some r) →
      env.fails .stat = false →
      (w.disk.contains (w.fm.objects r).path ∨
        row.name = (w.fm.objects r).path) → SameDescriptor env w.fm r) :
    Act.wp (loadFile env row)
      (fun _ w' => Coherent w'.fm ∧
        ∃ r, w'.fm.filesById[row.id]? = some (some r) ∧ WatchSafe env w' r)
      (fun _ _ => False) w := by
  simp only [loadFile, Act.wp_bind, Act.wp_modify]
  refine (cacheFile_coherent env hw).mono (fun _ w₁ h₁ => ?_) fun _ _ h => h
  obtain ⟨hw₁, hdisk, -, hwatch, r, hr, hcases⟩ := h₁
  rw [hid] at hr hcases
  have hwritten : ∀ w₂ : World, w₂.fm = w₁.fm →
      (∀ path, w₂.disk.contains path = true →
        w₁.disk.contains path = true ∨ row.name = path) →
      Coherent w₂.fm ∧ ∃ r, w₂.fm.filesById[row.id]? = some (some r) ∧
        WatchSafe env w₂ r := by
    intro w₂ hfm hcontains
    refine ⟨hfm ▸ hw₁, r, hfm ▸ hr, fun hstat hpath wd hwd => ?_⟩
    rw [hfm] at hpath hwd
    rcases hcases with ⟨hold, hsame⟩ | ⟨-, hunwatched⟩
    · rw [hsame] at hpath
      rw [hwatch] at hwd
      refine hsafe r hold hstat ?_ wd hwd
      rw [← hdisk]
      exact hcontains _ hpath
    · exact absurd hwd (hunwatched wd)
  split
  · exact hwritten w₁ rfl fun _ h => Or.inl h
  · refine hwritten _ rfl fun path hpath => ?_
    simp only [World.writeFile, Std.TreeMap.contains_insert,
      Bool.or_eq_true, Std.LawfulEqCmp.compare_eq_iff_eq,
      beq_iff_eq] at hpath
    exact hpath.symm

theorem processInsert_coherent {env : Env} {w : World} {id : ℤ}
    (hw : Coherent w.fm) (hid : 0 < id) (hsafe : InsertSafe env w id) :
    Act.wp (processInsert env id) (fun _ w' => Coherent w'.fm)
      (fun _ w' => Coherent w'.fm) w := by
  simp only [processInsert, Act.wp_bind]
  refine Act.wp_of_apply (ignoreFSNotifications_apply w) ?_
  have hopened := windowOpened_keepsIndex w
  have hw₁ := hw.of_keepsIndex hopened
  have hsame : ∀ r, SameDescriptor env w.fm r →
      SameDescriptor env (windowOpened w).fm r := by
    intro r h wd hwd
    rw [hopened.byWatch] at hwd
    exact h wd hwd
  have hrow : loadedRow env (windowOpened w) id = loadedRow env w id := by
    simp only [loadedRow, windowOpened_db]
  -- however the file gets into the cache, it is safe to watch
  suffices h : Act.wp (loadFiles env (whereId id))
      (fun _ w' => Coherent w'.fm ∧
        ∃ r, w'.fm.filesById[id]? = some (some r) ∧ WatchSafe env w' r)
      (fun _ _ => False) (windowOpened w) by
    refine h.mono ?_ fun _ _ h => h.elim
    rintro _ w₂ ⟨hw₂, r, hr, hwatch⟩
    refine Act.wp_of_apply (filesByIdIndex_of_some hr) ?_
    exact (watchFile_rewatched hw₂ hr hwatch).mono
      (fun _ _ h => h.coherent) fun _ _ h => h.coherent
  have hload := loadFiles_whereId env id (windowOpened w)
  rw [hrow] at hload
  cases hfetched : loadedRow env w id with
  | some row =>
      rw [hfetched] at hload
      obtain ⟨rfl, hfits, -⟩ := loadedRow_spec hfetched
      rw [Act.wp, hload]
      refine loadFile_watchSafe hw₁ (toUInt32_of_fits hfits hid)
        fun r hr hstat hpath => hsame r ?_
      rw [hopened.byId] at hr
      rw [windowOpened_disk, windowOpened_objects] at hpath
      exact hsafe.2 r hr hstat
        (hpath.imp_right fun h => ⟨row, hfetched, h⟩)
  | none =>
      rw [hfetched] at hload
      refine Act.wp_of_apply hload ⟨hw₁, ?_⟩
      have hcached : w.fm.filesById[id]? ≠ none := by
        intro hnone
        have := hsafe.1 hnone
        rw [hfetched] at this
        cases this
      obtain ⟨ptr, hptr⟩ := Option.ne_none_iff_exists'.mp hcached
      obtain ⟨r, rfl, -⟩ := hw.byId id ptr hptr
      refine ⟨r, by rw [hopened.byId, hptr], fun hstat hpath => hsame r ?_⟩
      rw [windowOpened_disk, windowOpened_objects] at hpath
      exact hsafe.2 r hptr hstat (Or.inl hpath)

/-! ## Whole operations -/

theorem findOrAddFile_keepsIndex_of_unquotable {env : Env}
    (h : env.fails .escapeLiteral = true) (fname : String) :
    Act.Keeps KeepsIndex (findOrAddFile env fname) := by
  refine Act.Keeps.get.bind fun w =>
    (findByName_keeps fname _).bind fun ptr => .ite ?_ ?_
  · exact (load_keeps ptr).bind fun _ => .pure _
  · exact (insertDBFile_keepsIndex_of_unquotable h fname).bind_of_stops
      (insertDBFile_stops_of_unquotable h fname) _

/-- However the call ends, the maps are coherent. -/
theorem findOrAddFile_coherent {env : Env} {w : World} (fname : String)
    (hw : Coherent w.fm) (hnew : NewIdentifier env w)
    (hlt : env.newId < 2 ^ 32) :
    Coherent (findOrAddFile env fname w).2.fm := by
  by_cases hquoted : env.fails .escapeLiteral = true
  · exact hw.of_keepsIndex
      (findOrAddFile_keepsIndex_of_unquotable hquoted fname w)
  rw [Bool.not_eq_true] at hquoted
  suffices h : Act.wp (findOrAddFile env fname) (fun _ w' => Coherent w'.fm)
      (fun _ w' => Coherent w'.fm) w from h.final
  simp only [findOrAddFile, Act.wp_bind, Act.wp_get]
  refine (findByName_keepsIndex fname hw.entries_some w).mono
    (fun ptr w₁ h₁ => ?_) fun _ _ h₁ => hw.of_keepsIndex h₁
  have hw₁ := hw.of_keepsIndex h₁
  cases ptr with
  | some r =>
      simp only [Option.isSome_some, if_true, fileInfoForDBPtr, Act.wp_bind]
      exact Act.wp_of_apply (load_some r w₁) hw₁
  | none =>
      have hnew₁ : NewIdentifier env w₁ :=
        ⟨hnew.1, by rw [h₁.byId, hnew.2]⟩
      simp only [Option.isSome_none, Bool.false_eq_true, if_false,
        Act.wp_bind, Act.wp_modify]
      refine (insertDBFile_coherent fname hquoted hw₁ hnew₁ hlt).mono ?_
        fun _ _ h => h
      rintro fid w₂ ⟨hw₂, -, r, hr, -⟩
      refine Act.wp_of_apply (filesByIdIndex_of_some hr) ?_
      rw [fileInfoForDBPtr, Act.wp_bind]
      refine Act.wp_of_apply (load_some r _) ?_
      exact ⟨hw₂.byId, hw₂.byWatch⟩

theorem handleInotifyEvent_coherent {w : World}
    {batch : List (Env × InotifyEvent)} (hw : Coherent w.fm)
    (hnew : UniqueIdentifiers w (.inotify batch))
    (hsafe : StepSafe w (.inotify batch)) :
    Coherent (step w (.inotify batch)).fm ∧
      RemovalsExact w (.inotify batch) := by
  simp only [step, handleInotifyEvent, Act.bind_apply, Act.get_apply]
  cases hflag : w.fm.ignoreFSNotifications with
  | true =>
      refine ⟨hw, fun h => ?_⟩
      rw [hflag] at h
      cases h
  | false =>
      have hguard : Along eventStep
          (fun w entry =>
            (entry.2.evtype = IN_CREATE → NewIdentifier entry.1 w) ∧
              EventSafe w entry) (windowOpened w) batch :=
        along_and.mpr ⟨hnew hflag, hsafe hflag⟩
      have hw₁ := hw.of_keepsIndex (windowOpened_keepsIndex w)
      have hinv : ∀ (w : World) (entry : Env × InotifyEvent),
          Coherent w.fm →
          (entry.2.evtype = IN_CREATE → NewIdentifier entry.1 w) ∧
            EventSafe w entry → Coherent (eventStep w entry).fm ∧
          ∀ r, removedByEvent w entry r →
            RemovedExactly w.fm (eventStep w entry).fm r :=
        fun w entry hw h => handleEvent_coherent hw h.1 h.2
      refine ⟨?_, fun _ => ?_⟩
      · rw [if_neg (by simp), Act.bind_apply, ignoreFSNotifications_apply]
        exact forEach_invariant (I := fun w : World => Coherent w.fm)
          (fun w entry hw h => (hinv w entry hw h).1) hw₁ hguard
      · exact along_of_invariant (fun w entry hw h => (hinv w entry hw h).1)
          (fun w entry hw h => (hinv w entry hw h).2) hw₁ hguard

theorem processDBNotification_coherent {env : Env} {w : World}
    {message : String} (hw : Coherent w.fm)
    (hnew : UniqueIdentifiers w (.dbNotification env message))
    (hsafe : StepSafe w (.dbNotification env message)) :
    Coherent (step w (.dbNotification env message)).fm ∧
      RemovalsExact w (.dbNotification env message) := by
  let P : World → Prop := fun w' => Coherent w'.fm ∧
    ∀ r, removedByMessage w message r → RemovedExactly w.fm w'.fm r
  suffices h : Act.wp (processDBNotification env message) (fun _ => P)
      (fun _ => P) w from h.final
  simp only [processDBNotification, Act.wp_bind, Act.wp_get]
  cases hparse : parseNotification w.fm.wspaceId message with
  | none =>
      refine ⟨hw, fun r hr => ?_⟩
      obtain ⟨id, hid, -⟩ := hr
      rw [hparse] at hid
      cases hid
  | some parsed =>
      obtain ⟨type, id⟩ := parsed
      have hid := hnew type id hparse
      obtain ⟨hdelete, hinsert⟩ := hsafe type id hparse
      have hkeep : ∀ w' : World, type ≠ 'd' → Coherent w'.fm → P w' := by
        intro w' hne hw'
        refine ⟨hw', fun r hr => ?_⟩
        obtain ⟨id', hid', -⟩ := hr
        rw [hparse] at hid'
        cases hid'
        exact absurd rfl hne
      simp only [Act.wp_tryCatch, Act.wp_pure]
      split
      next htype =>
        refine (processDelete_coherent hw (hdelete htype)).mono
          (fun _ w' h => ?_) fun _ _ h => h.elim
        refine ⟨h.1, fun r hr => ?_⟩
        obtain ⟨id', hid', hr'⟩ := hr
        rw [hparse] at hid'
        cases hid'
        exact h.2 r hr'
      next hne =>
        split
        next htype =>
          exact (processInsert_coherent hw hid (hinsert htype)).mono
            (fun _ w' h => hkeep w' hne h) fun _ w' h => hkeep w' hne h
        next =>
          exact (processUpdate_coherent hw).mono
            (fun _ w' h => hkeep w' hne h.1) fun _ _ h => h.elim

/-- One safe operation keeps the maps coherent and removes exactly what it
removes. -/
theorem step_coherent {w : World} {op : Op} (hw : Coherent w.fm)
    (hnew : UniqueIdentifiers w op) (hsafe : StepSafe w op) :
    Coherent (step w op).fm ∧ RemovalsExact w op := by
  cases op with
  | setupInotify envs =>
      exact ⟨(setupInotify_coherent hw hsafe).final, trivial⟩
  | watchFile env id =>
      obtain ⟨r, hr, hwatch⟩ := hsafe
      refine ⟨?_, trivial⟩
      simp only [step, Act.bind_apply, filesByIdIndex_of_some hr]
      exact ((watchFile_rewatched hw hr hwatch).mono
        (fun _ _ h => h.coherent) fun _ _ h => h.coherent).final
  | inotify batch => exact handleInotifyEvent_coherent hw hnew hsafe
  | dbNotification env message =>
      exact processDBNotification_coherent hw hnew hsafe
  | findOrAddFile env fname =>
      exact ⟨findOrAddFile_coherent fname hw hnew hsafe, trivial⟩
  | ignoreFSNotesOff =>
      exact ⟨hw.of_keepsIndex (KeepsIndex.of_eq rfl rfl rfl rfl), trivial⟩
  | outside disk inotify db => exact ⟨hw, trivial⟩

/-- Along every run whose operations are safe, the two maps are coherent and
every removal takes exactly the removed file out of them. -/
theorem indexCoherent_of_stepSafe {w : World} {ops : List Op}
    (hw : Coherent w.fm) (hnew : Along step UniqueIdentifiers w ops)
    (hsafe : Along step StepSafe w ops) : IndexCoherent w ops := by
  have hguard := along_and.mpr ⟨hnew, hsafe⟩
  refine ⟨?_, ?_⟩
  · exact run_invariant (I := fun w => Coherent w.fm)
      (fun _ _ hw h => (step_coherent hw h.1 h.2).1) hw hguard
  · exact along_of_invariant (I := fun w => Coherent w.fm)
      (fun _ _ hw h => (step_coherent hw h.1 h.2).1)
      (fun _ _ hw h => (step_coherent hw h.1 h.2).2) hw hguard

/-! ## A file that comes and goes -/

theorem coherent_initial (workingDir : String) (wspaceId sessionRecId : ℤ) :
    Coherent (FileManager.initial workingDir wspaceId sessionRecId) := by
  refine ⟨fun id ptr h => ?_, fun wd ptr h => ?_⟩
  · simp [FileManager.initial] at h
  · simp [FileManager.initial] at h

/-- A database with the one empty file `a.R`, of identifier 7. -/
def oneFile : Tables where
  rcfile := (∅ : Map ℤ FileRow).insert 7 ⟨1, 1, "a.R", 0, 0⟩
  rcfiledata := (∅ : Map ℤ Bytes).insert 7 []
  rcworkspacedata := ∅
  sessionimage := ∅

/-- The file is announced, and watched under the descriptor `wd`; then its
deletion is announced. -/
def insertThenDelete (wd : ℤ) : List Op :=
  [.dbNotification (Env.succeeding wd 1) "i7/1/a",
    .dbNotification (Env.succeeding wd 1) "d7/1/a"]

theorem parse_insert : parseNotification 1 "i7/1/a" = some ('i', 7) := by
  decide

theorem parse_delete : parseNotification 1 "d7/1/a" = some ('d', 7) := by
  decide

theorem insertThenDelete_unique (wd : ℤ)
    (hwspace : (step (World.initial "wd" 1 1 oneFile)
      (.dbNotification (Env.succeeding wd 1) "i7/1/a")).fm.wspaceId = 1) :
    Along step UniqueIdentifiers (World.initial "wd" 1 1 oneFile)
      (insertThenDelete wd) := by
  refine ⟨fun type id h => ?_, fun type id h => ?_, trivial⟩
  · cases parse_insert.symm.trans h
    decide
  · rw [hwspace] at h
    cases parse_delete.symm.trans h
    decide

/-- Deleting a file whose descriptor is not its identifier leaves its watch
entry behind. -/
theorem indexCoherent_fails_on_delete :
    Coherent (World.initial "wd" 1 1 oneFile).fm ∧
      Along step UniqueIdentifiers (World.initial "wd" 1 1 oneFile)
        (insertThenDelete 3) ∧
      ¬ IndexCoherent (World.initial "wd" 1 1 oneFile) (insertThenDelete 3) := by
  refine ⟨coherent_initial _ _ _, insertThenDelete_unique 3 (by decide), ?_⟩
  rintro ⟨hfinal, -⟩
  have hwatch : (run step (World.initial "wd" 1 1 oneFile)
      (insertThenDelete 3)).fm.filesByWatchDesc[(3 : ℤ)]? = some (some 0) := by
    decide
  have hid : (run step (World.initial "wd" 1 1 oneFile)
      (insertThenDelete 3)).fm.filesById[((run step (World.initial "wd" 1 1 oneFile)
        (insertThenDelete 3)).fm.objects 0).id]? = none := by
    decide
  rw [(hfinal.watched hwatch).2] at hid
  cases hid

/-- When the descriptor is the identifier, the run is safe. -/
theorem indexCoherent_insertThenDelete :
    IndexCoherent (World.initial "wd" 1 1 oneFile) (insertThenDelete 7) := by
  refine indexCoherent_of_stepSafe (coherent_initial _ _ _)
    (insertThenDelete_unique 7 (by decide)) ⟨fun type id h => ?_,
      fun type id h => ?_, trivial⟩
  · cases parse_insert.symm.trans h
    refine ⟨fun h => absurd h (by decide), fun _ => ⟨fun _ => by decide, ?_⟩⟩
    intro r hr
    simp [World.initial, FileManager.initial] at hr
  · have hwspace : (step (World.initial "wd" 1 1 oneFile) (.dbNotification
        (Env.succeeding 7 1) "i7/1/a")).fm.wspaceId = 1 := by decide
    have hcached : (step (World.initial "wd" 1 1 oneFile) (.dbNotification
        (Env.succeeding 7 1) "i7/1/a")).fm.filesById[(7 : ℤ)]? =
          some (some 0) := by decide
    have hwatch : (step (World.initial "wd" 1 1 oneFile) (.dbNotification
        (Env.succeeding 7 1) "i7/1/a")).fm.filesByWatchDesc =
          (∅ : Map ℤ DBFileInfoPtr).insert 7 (some 0) := rfl
    rw [hwspace] at h
    cases parse_delete.symm.trans h
    refine ⟨fun _ r hr wd hwd => ?_, fun h => absurd h (by decide)⟩
    rw [hcached] at hr
    obtain rfl : 0 = r := Option.some.inj (Option.some.inj hr)
    rw [hwatch, Map.getElem?_insert] at hwd ⊢
    by_cases hkey : 7 = wd
    · simp [hkey]
    · simp [hkey] at hwd

end Rc2Compute.Files
