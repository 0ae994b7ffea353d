import Rc2Compute.Files.Coherence
import Rc2Compute.Files.Images

/-!
# Null pointers

Indexing one of the manager's maps with an absent key leaves a null pointer
there, which the manager goes on to dereference.  While no callback does that,
every pointer of the maps leads to an object.  The theorems below say which
events and messages are safe, and that they keep the maps so.
-/

namespace Rc2Compute.Files

open Rc2Compute.Transition (Along along_and along_of_mem forEach_eq_run
  run_invariant)

/-- No pointer of the two maps is null. -/
structure Mapped (fm : FileManager) : Prop where
  byId : ∀ (id : ℤ) (ptr : DBFileInfoPtr),
    fm.filesById[id]? = some ptr → ∃ r, ptr = some r
  byWatch : ∀ (wd : ℤ) (ptr : DBFileInfoPtr),
    fm.filesByWatchDesc[wd]? = some ptr → ∃ r, ptr = some r

/-- A world in which the manager's maps hold no null pointer. -/
structure ManagedWorld where
  world : World
  mapped : Mapped world.fm

namespace Mapped

variable {fm : FileManager} {w w' : World}

theorem initial (workingDir : String) (wspaceId sessionRecId : ℤ) :
    Mapped (FileManager.initial workingDir wspaceId sessionRecId) where
  byId := by simp [FileManager.initial]
  byWatch := by simp [FileManager.initial]

/-- The pointers of a map, all together. -/
theorem forall_toList {m : Map ℤ DBFileInfoPtr} :
    (m.toList.all fun entry => entry.2.isSome) = true ↔
      ∀ (k : ℤ) (ptr : DBFileInfoPtr), m[k]? = some ptr → ∃ r, ptr = some r := by
  rw [List.all_eq_true]
  constructor
  · intro h k ptr hk
    exact Option.isSome_iff_exists.mp (h (k, ptr) ((Map.mem_toList m).mpr hk))
  · rintro h ⟨k, ptr⟩ hmem
    exact Option.isSome_iff_exists.mpr (h k ptr ((Map.mem_toList m).mp hmem))

instance : Decidable (Mapped fm) :=
  decidable_of_iff
    ((fm.filesById.toList.all fun entry => entry.2.isSome) = true ∧
      (fm.filesByWatchDesc.toList.all fun entry => entry.2.isSome) = true)
    ⟨fun h => ⟨forall_toList.mp h.1, forall_toList.mp h.2⟩,
      fun h => ⟨forall_toList.mpr h.byId, forall_toList.mpr h.byWatch⟩⟩

theorem of_keepsIndex (h : Mapped w.fm) (hk : KeepsIndex w w') :
    Mapped w'.fm where
  byId := by
    rw [hk.byId]
    exact h.byId
  byWatch := by
    rw [hk.byWatch]
    exact h.byWatch

/-- An entry that leads to an object may be added. -/
theorem insert {m : Map ℤ DBFileInfoPtr} {k : ℤ} {r : ℕ}
    (h : ∀ (a : ℤ) (ptr : DBFileInfoPtr), m[a]? = some ptr → ∃ r, ptr = some r) :
    ∀ (a : ℤ) (ptr : DBFileInfoPtr), (m.insert k (some r))[a]? = some ptr →
      ∃ r, ptr = some r := by
  intro a ptr ha
  rw [Map.getElem?_insert] at ha
  split at ha
  next => exact ⟨r, (Option.some.inj ha).symm⟩
  next => exact h a ptr ha

theorem erase {m : Map ℤ DBFileInfoPtr} {k : ℤ}
    (h : ∀ (a : ℤ) (ptr : DBFileInfoPtr), m[a]? = some ptr → ∃ r, ptr = some r) :
    ∀ (a : ℤ) (ptr : DBFileInfoPtr), (m.erase k)[a]? = some ptr →
      ∃ r, ptr = some r := by
  intro a ptr ha
  rw [Map.getElem?_erase] at ha
  split at ha
  next => cases ha
  next => exact h a ptr ha

theorem entries_some (h : Mapped fm) :
    ∀ entry ∈ fm.filesById.toList, ∃ r, entry.2 = some r := by
  rintro ⟨id, ptr⟩ hentry
  exact h.byId id ptr ((Map.mem_toList _).mp hentry)

/-- The descriptor of an event that looks its file up is known. -/
theorem watched (h : Mapped fm) {wd : ℤ}
    (hknown : fm.filesByWatchDesc.contains wd = true) :
    ∃ r, fm.filesByWatchDesc[wd]? = some (some r) := by
  rw [Std.TreeMap.contains_eq_isSome_getElem?] at hknown
  obtain ⟨ptr, hptr⟩ := Option.isSome_iff_exists.mp hknown
  obtain ⟨r, rfl⟩ := h.byWatch wd ptr hptr
  exact ⟨r, hptr⟩

theorem cached (h : Mapped fm) {id : ℤ}
    (hknown : fm.filesById.contains id = true) :
    ∃ r, fm.filesById[id]? = some (some r) := by
  rw [Std.TreeMap.contains_eq_isSome_getElem?] at hknown
  obtain ⟨ptr, hptr⟩ := Option.isSome_iff_exists.mp hknown
  obtain ⟨r, rfl⟩ := h.byId id ptr hptr
  exact ⟨r, hptr⟩

end Mapped

/-! ## Files that enter the maps -/

theorem insertDBFile_mapped {env : Env} {w : World} (fname : String)
    (hquoted : env.fails .escapeLiteral = false) (hw : Mapped w.fm) :
    Act.wp (insertDBFile env fname)
      (fun fid w' => Mapped w'.fm ∧ ∃ r, w'.fm.filesById[fid]? = some (some r))
      (fun _ w' => Mapped w'.fm) w := by
  simp only [insertDBFile, withTransaction, Act.wp_ensuring, Act.wp_bind]
  refine (beginTransaction_keepsIndex env w).mono (fun _ w₁ h₁ => ?_)
    fun _ w₁ h₁ => (hw.of_keepsIndex h₁).of_keepsIndex (rollback_keepsIndex _)
  refine wp_longFromQuery (fun _ _ =>
    (hw.of_keepsIndex h₁).of_keepsIndex (rollback_keepsIndex _)) fun _ => ?_
  refine (newDBFileInfo_spec env env.newId 1 fname w₁).mono ?_
    fun _ _ h => h.elim
  rintro _ w₂ ⟨h₂, -, -, rfl, -, -⟩
  have hw₂ := (hw.of_keepsIndex h₁).of_keepsIndex h₂
  refine (insertRows_keepsIndex hquoted fname env.newId w₂).mono
    (fun _ w₃ h₃ => ?_)
    fun _ w₃ h₃ => (hw₂.of_keepsIndex h₃).of_keepsIndex (rollback_keepsIndex _)
  have hw₃ := hw₂.of_keepsIndex h₃
  have hentry : ∀ k : ℤ, (w₃.fm.filesById.insertIfNew env.newId
      (some w₁.fm.nextObject))[k]? =
        if env.newId = k ∧ w₃.fm.filesById[env.newId]? = none then
          some (some w₁.fm.nextObject)
        else w₃.fm.filesById[k]? :=
    fun k => Map.getElem?_insertIfNew _ _ _ _
  have hmapped : ∀ (k : ℤ) (ptr : DBFileInfoPtr),
      (w₃.fm.filesById.insertIfNew env.newId (some w₁.fm.nextObject))[k]? =
        some ptr → ∃ r, ptr = some r := by
    intro k ptr hk
    rw [hentry] at hk
    split at hk
    next => exact ⟨_, (Option.some.inj hk).symm⟩
    next => exact hw₃.byId k ptr hk
  refine ⟨⟨hmapped, hw₃.byWatch⟩, ?_⟩
  cases hold : w₃.fm.filesById[env.newId]? with
  | none => exact ⟨_, (hentry env.newId).trans (if_pos ⟨rfl, hold⟩)⟩
  | some ptr =>
      obtain ⟨r, rfl⟩ := hw₃.byId _ ptr hold
      have hkept := hentry env.newId
      rw [if_neg (by simp [hold]), hold] at hkept
      exact ⟨r, hkept⟩

theorem watchFile_mapped {env : Env} {w : World} {r : ℕ} (hw : Mapped w.fm) :
    Act.wp (watchFile env (some r)) (fun _ w' => Mapped w'.fm)
      (fun _ w' => Mapped w'.fm) w := by
  simp only [watchFile, statFails, Act.wp_bind, Act.wp_get, Act.wp_pure,
    Act.wp_throwIf]
  refine Act.wp_of_apply (load_some r w) ⟨fun _ => hw, fun _ => ?_⟩
  refine (inotify_add_watch_spec env _ fileMask w).mono ?_ fun _ _ h => h.elim
  rintro wd w₁ ⟨-, hfm, -⟩
  refine Act.wp_of_apply (store_some r _ w₁) ⟨fun _ => ?_, fun _ => ?_⟩
  · rw [World.setObject, hfm]
    exact ⟨hw.byId, hw.byWatch⟩
  · rw [World.setObject, hfm]
    exact ⟨hw.byId, Mapped.insert hw.byWatch⟩

theorem handleCreate_mapped {env : Env} {w : World} (event : InotifyEvent)
    (hquoted : env.fails .escapeLiteral = false) (hw : Mapped w.fm) :
    Act.wp (handleCreate env event) (fun _ w' => Mapped w'.fm)
      (fun _ w' => Mapped w'.fm) w := by
  unfold handleCreate
  split
  · exact hw
  split
  · exact (startImageWatch_keepsIndex env event.name _ w).mono
      (fun _ _ h => hw.of_keepsIndex h) fun _ _ h => hw.of_keepsIndex h
  rw [Act.wp_bind, Act.wp_get]
  beta_reduce
  split
  · exact hw
  rw [Act.wp_bind, fileExistsWithName, Act.wp_bind, Act.wp_get]
  beta_reduce
  rw [Act.wp_bind]
  refine (findByName_keepsIndex event.name hw.entries_some w).mono
    (fun found w₁ h₁ => ?_) fun _ _ h₁ => hw.of_keepsIndex h₁
  have hw₁ := hw.of_keepsIndex h₁
  rw [Act.wp_pure]
  split
  · exact hw₁
  rw [Act.wp_bind]
  refine (insertDBFile_mapped event.name hquoted hw₁).mono ?_ fun _ _ h => h
  rintro fid w₂ ⟨hw₂, r, hr⟩
  split
  · rw [Act.wp_bind]
    exact Act.wp_of_apply (filesByIdIndex_of_some hr) (watchFile_mapped hw₂)
  · exact hw₂

/-- The condition on an event: the descriptor it looks a file up under is
known. -/
def EventKnown (w : World) (event : InotifyEvent) : Prop :=
  (event.evtype = IN_CLOSE_WRITE →
    w.fm.pendingImagesByWatchDesc[event.wd]? = none →
    w.fm.filesByWatchDesc.contains event.wd = true) ∧
  (event.evtype = IN_DELETE_SELF ∨ event.evtype = IN_OPEN ∨
      event.evtype = IN_MODIFY →
    w.fm.filesByWatchDesc.contains event.wd = true)

/-- The condition on the name of a new file: the driver can quote it. -/
def Quotable (entry : Env × InotifyEvent) : Prop :=
  entry.2.evtype = IN_CREATE → entry.1.fails .escapeLiteral = false

theorem handleCloseWrite_mapped {env : Env} {event : InotifyEvent}
    {w : World} (hw : Mapped w.fm)
    (hknown : w.fm.pendingImagesByWatchDesc[event.wd]? = none →
      w.fm.filesByWatchDesc.contains event.wd = true) :
    Act.wp (handleCloseWrite env event) (fun _ w' => Mapped w'.fm)
      (fun _ w' => Mapped w'.fm) w := by
  simp only [handleCloseWrite, Act.wp_bind, Act.wp_get]
  split
  next image _ =>
    have hmoves : Act.Moves KeepsIndex
        (do insertImage env image.fileName image.imgNumStr
            stopImageWatch event.wd) :=
      (insertImage_keepsIndex env _ _).bind fun _ =>
        stopImageWatch_keepsIndex event.wd
    exact (hmoves w).mono (fun _ _ h => hw.of_keepsIndex h)
      fun _ _ h => hw.of_keepsIndex h
  next hpending =>
    obtain ⟨r, hr⟩ := hw.watched (hknown hpending)
    rw [Act.wp_bind]
    refine Act.wp_of_apply (filesByWatchDescIndex_of_some hr) ?_
    rw [Act.wp_bind]
    refine Act.wp_of_apply (load_some r w) ?_
    exact (updateDBFile_keepsIndex env r w).mono
      (fun _ _ h => hw.of_keepsIndex h) fun _ _ h => hw.of_keepsIndex h

theorem handleDeleteSelf_mapped {env : Env} {event : InotifyEvent}
    {w : World} (hw : Mapped w.fm)
    (hknown : w.fm.filesByWatchDesc.contains event.wd = true) :
    Act.wp (handleDeleteSelf env event) (fun _ w' => Mapped w'.fm)
      (fun _ _ => False) w := by
  obtain ⟨r, hr⟩ := hw.watched hknown
  refine (handleDeleteSelf_spec hr).mono (fun _ w' h => ?_) fun _ _ h => h
  split at h
  next =>
    rw [h]
    exact ⟨Mapped.erase hw.byId, Mapped.erase hw.byWatch⟩
  next =>
    rw [h]
    exact ⟨hw.byId, Mapped.erase hw.byWatch⟩

theorem handleLogged_mapped {event : InotifyEvent} {w : World}
    (hw : Mapped w.fm)
    (hknown : w.fm.filesByWatchDesc.contains event.wd = true) :
    Act.wp (handleLogged event) (fun _ w' => Mapped w'.fm)
      (fun _ _ => False) w := by
  obtain ⟨r, hr⟩ := hw.watched hknown
  rw [handleLogged, Act.wp_bind]
  refine Act.wp_of_apply (filesByWatchDescIndex_of_some hr) ?_
  rw [Act.wp_bind]
  exact Act.wp_of_apply (load_some r w) hw

/-- An event whose descriptor is known is handled, whatever the calls it makes
answer. -/
theorem handleEvent_mapped {w : World} {entry : Env × InotifyEvent}
    (hw : Mapped w.fm) (hknown : EventKnown w entry.2)
    (hquoted : Quotable entry) :
    Act.wp (handleEvent entry.1 entry.2) (fun _ w' => Mapped w'.fm)
      (fun _ _ => False) w := by
  obtain ⟨hclose, hlookup⟩ := hknown
  simp only [handleEvent, Act.wp_tryCatch, Act.wp_pure]
  split
  next htype => exact handleCreate_mapped entry.2 (hquoted htype) hw
  split
  next htype => exact handleCloseWrite_mapped hw (hclose htype)
  split
  next htype =>
    exact (handleDeleteSelf_mapped hw (hlookup (Or.inl htype))).mono
      (fun _ _ h => h) fun _ _ h => h.elim
  next =>
  split
  next htype =>
    exact (handleLogged_mapped hw (hlookup (Or.inr htype))).mono
      (fun _ _ h => h) fun _ _ h => h.elim
  next => exact hw

/-- A loop whose bodies are safe one after the other. -/
theorem forEach_mapped {α : Type} {f : α → Prog Unit}
    {guard : World → α → Prop} {as : List α} {w : World} (hw : Mapped w.fm)
    (hstep : ∀ w a, Mapped w.fm → guard w a →
      Act.wp (f a) (fun _ w' => Mapped w'.fm) (fun _ _ => False) w)
    (h : Along (fun w a => (f a w).2) guard w as) :
    Act.wp (Act.forEach as f) (fun _ w' => Mapped w'.fm)
      (fun _ _ => False) w := by
  have hrun := forEach_eq_run (I := fun w : World => Mapped w.fm) hstep hw h
  refine Act.wp_of_apply hrun ?_
  exact run_invariant (I := fun w : World => Mapped w.fm)
    (fun w a hw h => ((hstep w a hw h).mono (fun _ _ h => h)
      fun _ _ h => h.elim).final) hw h

/-- The condition on the events of one read: each is known when its turn
comes. -/
def BatchKnown (w : World) (batch : List (Env × InotifyEvent)) : Prop :=
  w.fm.ignoreFSNotifications = false →
    Along (fun w entry => (handleEvent entry.1 entry.2 w).2)
      (fun w entry => EventKnown w entry.2) (windowOpened w) batch

/-- The condition on their names: none is handled that the driver cannot
quote. -/
def BatchQuotable (w : World) (batch : List (Env × InotifyEvent)) : Prop :=
  w.fm.ignoreFSNotifications = false → ∀ entry ∈ batch, Quotable entry

theorem handleInotifyEvent_mapped {w : World}
    {batch : List (Env × InotifyEvent)} (hw : Mapped w.fm)
    (hknown : BatchKnown w batch) (hquoted : BatchQuotable w batch) :
    Act.wp (handleInotifyEvent batch) (fun _ w' => Mapped w'.fm)
      (fun _ _ => False) w := by
  rw [handleInotifyEvent, Act.wp_bind, Act.wp_get]
  beta_reduce
  split
  next => exact hw
  next hflag =>
    rw [Bool.not_eq_true] at hflag
    rw [Act.wp_bind]
    refine Act.wp_of_apply (ignoreFSNotifications_apply w) ?_
    exact forEach_mapped (hw.of_keepsIndex (windowOpened_keepsIndex w))
      (fun w entry hw h => handleEvent_mapped hw h.1 h.2)
      (along_and.mpr ⟨hknown hflag,
        along_of_mem (fun entry hentry _ => hquoted hflag entry hentry) _⟩)

/-! ## Messages -/

/-- The condition on a pending image: its file is there, and is empty or can
be read and stored. -/
def Storable (env : Env) (w : World) (fname : String) : Prop :=
  env.fails .fileSize = false ∧ env.fails .readFile = false ∧
    ∃ data, w.disk[fname]? = some data ∧
      (data.length < 1 ∨
        env.fails .nextImageId = false ∧ 0 < env.newId ∧
        (w.fm.sessionImageBatch ≤ 0 → env.fails .selectBatch = false) ∧
        env.fails .insertImage = false ∧ w.db.transaction ≠ some none ∧
        w.db.visible.sessionimage.contains env.newId = false ∧
        (byteaParam env (env.buffer data)).isSome = true ∧ env.fails .remove = false)

/-- A statement goes through if the tables it reads accept it. -/
theorem executeQuery_spec (env : Env) (call : Call)
    (statement : Tables → Option Tables) (w : World) :
    Act.wp (executeQuery env call statement)
      (fun ok w' => w'.fm = w.fm ∧ w'.disk = w.disk ∧
        (ok = true ↔ env.fails call = false ∧
          w.db.transaction ≠ some none ∧
          (statement w.db.visible).isSome = true))
      (fun _ _ => False) w := by
  unfold Act.wp executeQuery Database.visible
  match htransaction : w.db.transaction with
  | none =>
      cases hfails : env.fails call with
      | true => simp
      | false =>
          cases statement w.db.committed with
          | none => simp
          | some tables => simp
  | some none => simp
  | some (some working) =>
      cases hfails : env.fails call with
      | true => simp
      | false => simp

/-- The condition on the pending images: each can be stored when its turn
comes. -/
def PendingStorable (envs : ℤ → Env) (w : World) : Prop :=
  Along (fun w entry => (Drawing.shelveImage envs entry w).2)
    (fun w entry => Storable (envs entry.1) w entry.2.fileName) w
    w.fm.pendingImagesByWatchDesc.toList

/-- The database and both maps are the same. -/
structure SameIndex (w w' : World) : Prop where
  byId : w'.fm.filesById = w.fm.filesById
  byWatch : w'.fm.filesByWatchDesc = w.fm.filesByWatchDesc
  db : w'.db = w.db

/-- No event of the batch leads to a null pointer, and one whose descriptor is
unknown changes neither the maps nor the database. -/
structure Harmless (w : World) (batch : List (Env × InotifyEvent)) :
    Prop where
  dereferences : (handleInotifyEvent batch w).1 ≠ .undefined
  unchanged : w.fm.ignoreFSNotifications = false →
    Along (fun w entry => (handleEvent entry.1 entry.2 w).2)
      (fun w entry => ¬EventKnown w entry.2 →
        SameIndex w (handleEvent entry.1 entry.2 w).2)
      (windowOpened w) batch

/-- Looking up an unknown descriptor makes a null pointer, which is then
dereferenced. -/
theorem lookup_unknown {α : Type} {w : World} {wd : ℤ}
    (f : DBFileInfoPtr → DBFileInfo → Prog α)
    (h : ¬w.fm.filesByWatchDesc.contains wd = true) :
    ((do
      let fobj ← filesByWatchDescIndex wd
      let info ← load fobj
      f fobj info) w).1 = .undefined := by
  have hnone : w.fm.filesByWatchDesc[wd]? = none := by
    rw [Std.TreeMap.contains_eq_isSome_getElem?] at h
    exact Option.not_isSome_iff_eq_none.mp h
  have hindex : filesByWatchDescIndex wd w =
      (.returned none, { w with fm := { w.fm with
        filesByWatchDesc := w.fm.filesByWatchDesc.insert wd none } }) := by
    rw [filesByWatchDescIndex, hnone]
  rw [Act.bind_apply_returned hindex]
  rfl

/-- An event on an unknown descriptor has no defined meaning. -/
theorem handleEvent_unknown {w : World} {entry : Env × InotifyEvent}
    (h : ¬EventKnown w entry.2) :
    (handleEvent entry.1 entry.2 w).1 = .undefined := by
  have hbody : ∀ {body : Prog Unit}, (body w).1 = .undefined →
      (Act.tryCatch body (fun _ => pure ()) w).1 = .undefined := by
    intro body hundefined
    rw [Act.tryCatch_apply]
    rcases hrun : body w with ⟨_ | _ | _, w'⟩
    · rw [hrun] at hundefined
      cases hundefined
    · rw [hrun] at hundefined
      cases hundefined
    · rfl
  rw [handleEvent]
  apply hbody
  rw [EventKnown, not_and_or] at h
  rcases h with hclose | hlookup
  · simp only [Classical.not_imp] at hclose
    obtain ⟨htype, hpending, hunknown⟩ := hclose
    rw [htype, if_neg (by decide), if_pos rfl, handleCloseWrite,
      Act.bind_apply_returned (Act.get_apply w), hpending]
    exact lookup_unknown (fun fobj _ => updateDBFile entry.1 fobj) hunknown
  · simp only [Classical.not_imp] at hlookup
    obtain ⟨htype, hunknown⟩ := hlookup
    rcases htype with htype | htype | htype
    · rw [htype, if_neg (by decide), if_neg (by decide), if_pos rfl]
      exact lookup_unknown _ hunknown
    · rw [htype, if_neg (by decide), if_neg (by decide), if_neg (by decide),
        if_pos (Or.inl rfl)]
      exact lookup_unknown _ hunknown
    · rw [htype, if_neg (by decide), if_neg (by decide), if_neg (by decide),
        if_pos (Or.inr rfl)]
      exact lookup_unknown _ hunknown

/-- A loop over events that meets no null pointer knows them all. -/
theorem forEach_handleEvent_known {w : World} (hw : Mapped w.fm)
    {batch : List (Env × InotifyEvent)}
    (hquoted : ∀ entry ∈ batch, Quotable entry)
    (h : (Act.forEach batch (fun entry => handleEvent entry.1 entry.2) w).1 ≠
      .undefined) :
    Along (fun w entry => (handleEvent entry.1 entry.2 w).2)
      (fun w entry => EventKnown w entry.2) w batch := by
  induction batch generalizing w with
  | nil => trivial
  | cons entry batch ih =>
      rw [Act.forEach_cons, Act.bind_apply] at h
      by_cases hknown : EventKnown w entry.2
      · obtain ⟨w', hw', hmapped⟩ :=
          (handleEvent_mapped hw hknown (hquoted entry (by simp))).ends
        rw [hw'] at h
        constructor
        · exact hknown
        · dsimp only
          rw [hw']
          exact ih hmapped (fun entry he => hquoted entry (by simp [he])) h
      · have hundefined := handleEvent_unknown hknown
        rcases hrun : handleEvent entry.1 entry.2 w with ⟨_ | _ | _, w'⟩
        · rw [hrun] at hundefined
          cases hundefined
        · rw [hrun] at hundefined
          cases hundefined
        · rw [hrun] at h
          exact absurd rfl h

theorem Coherent.mapped {fm : FileManager} (h : Coherent fm) : Mapped fm where
  byId id ptr hptr := by
    obtain ⟨r, hr, -⟩ := h.byId id ptr hptr
    exact ⟨r, hr⟩
  byWatch wd ptr hptr := by
    obtain ⟨r, hr, -⟩ := h.byWatch wd ptr hptr
    exact ⟨r, hr⟩

/-- From coherent maps a batch, whose new files have names that the driver can
quote, is harmless exactly if no event comes on an unknown descriptor when its
turn comes. -/
theorem harmless_iff_batchKnown {w : World} (hw : Coherent w.fm)
    {batch : List (Env × InotifyEvent)}
    (hquoted : ∀ entry ∈ batch, Quotable entry) :
    Harmless w batch ↔ BatchKnown w batch := by
  constructor
  · rintro ⟨hdereferences, -⟩ hflag
    have hopened := hw.mapped.of_keepsIndex (windowOpened_keepsIndex w)
    apply forEach_handleEvent_known hopened hquoted
    rw [handleInotifyEvent, Act.bind_apply_returned (Act.get_apply w), hflag,
      if_neg Bool.false_ne_true,
      Act.bind_apply_returned (ignoreFSNotifications_apply w)]
      at hdereferences
    exact hdereferences
  · intro hknown
    constructor
    · obtain ⟨w', hw'⟩ := (handleInotifyEvent_mapped hw.mapped hknown
        fun _ => hquoted).returns
      rw [hw']
      simp
    · intro hflag
      exact (hknown hflag).mono fun w entry h hunknown => absurd h hunknown

/-- An image that is written twice before its events are read. -/
def writtenTwice : List (Env × InotifyEvent) :=
  let event : InotifyEvent := ⟨5, IN_CLOSE_WRITE, "", .other⟩
  [(Env.succeeding 7 1, event), (Env.succeeding 7 2, event)]

/-- An image is pending under the descriptor 5. -/
def onePending : World :=
  let w := World.initial "wd" 1 1 ⟨∅, ∅, ∅, ∅⟩
  { w with
    disk := (∅ : Map String Bytes).insert "rc2img1.png" [1]
    fm :=
    { w.fm with
      pendingImagesByWatchDesc :=
        (∅ : Map ℤ PendingImage).insert 5 ⟨"rc2img1.png", "1", 5⟩ } }

theorem onePending_coherent : Coherent onePending.fm :=
  ⟨(coherent_initial "wd" 1 1).byId, (coherent_initial "wd" 1 1).byWatch⟩

/-- The first event stores the image and stops its watch, and the second one
is looked up among the files. -/
theorem harmless_fails_on_writtenTwice :
    ¬∀ w : World, Coherent w.fm → ∀ batch, Harmless w batch := by
  intro h
  have hdereferences := (h onePending onePending_coherent
    writtenTwice).dereferences
  exact hdereferences (by decide +kernel)

/-- The file `a.R` is watched under the descriptor 3, and an image is pending
under 5. -/
def watchedAndPending : World :=
  { onePending with
    disk := onePending.disk.insert "a.R" [2]
    db := ⟨⟨(∅ : Map ℤ FileRow).insert 7 ⟨1, 1, "a.R", 0, 0⟩,
      (∅ : Map ℤ Bytes).insert 7 [], ∅, ∅⟩, none⟩
    fm :=
      { onePending.fm with
        objects := fun _ => ⟨7, 1, "a.R", "a.R", 3⟩
        nextObject := 1
        filesById := (∅ : Map ℤ DBFileInfoPtr).insert 7 (some 0)
        filesByWatchDesc := (∅ : Map ℤ DBFileInfoPtr).insert 3 (some 0) } }

theorem watchedAndPending_coherent : Coherent watchedAndPending.fm := by
  have hsingle : ∀ {k k' : ℤ} {ptr : DBFileInfoPtr},
      ((∅ : Map ℤ DBFileInfoPtr).insert k (some 0))[k']? = some ptr →
        k' = k ∧ ptr = some 0 := by
    intro k k' ptr h
    rw [Map.getElem?_insert] at h
    split at h
    next heq => exact ⟨heq.symm, (Option.some.inj h).symm⟩
    next => simp at h
  constructor
  · intro id ptr h
    obtain ⟨rfl, rfl⟩ := hsingle h
    exact ⟨0, rfl, by decide, by decide⟩
  · intro wd ptr h
    obtain ⟨rfl, rfl⟩ := hsingle h
    exact ⟨0, rfl, by decide, by decide⟩

/-- The file is opened, changed and closed, and so is the image in between. -/
def bothWritten : List (Env × InotifyEvent) :=
  [(Env.succeeding 7 1, ⟨3, IN_OPEN, "", .other⟩),
    (Env.succeeding 7 1, ⟨3, IN_MODIFY, "", .other⟩),
    (Env.succeeding 7 1, ⟨5, IN_CLOSE_WRITE, "", .other⟩),
    (Env.succeeding 7 2, ⟨3, IN_CLOSE_WRITE, "", .other⟩)]

instance (w : World) (event : InotifyEvent) : Decidable (EventKnown w event) :=
  inferInstanceAs (Decidable ((_ → _ → _) ∧ (_ → _)))

theorem harmless_bothWritten : Harmless watchedAndPending bothWritten := by
  have hquoted : ∀ entry ∈ bothWritten, Quotable entry := by
    intro entry hentry _
    simp only [bothWritten, List.mem_cons, List.not_mem_nil, or_false] at hentry
    obtain rfl | rfl | rfl | rfl := hentry <;> rfl
  rw [harmless_iff_batchKnown watchedAndPending_coherent hquoted]
  intro _
  exact ⟨by decide +kernel, by decide +kernel, by decide +kernel,
    by decide +kernel, trivial⟩

end Rc2Compute.Files
