import Rc2Compute.Files.Succeeding
import Rc2Compute.Support.Portions
import Rc2Compute.Support.Transition
import Mathlib.Data.List.Forall2

/-!
# Images and the commands that drew them

A command draws images as new files of the working directory.  Their inotify
events make the manager watch them; the acknowledgement of the command stores
what is watched and reports the identifiers.  An image moves from the unread
events to the pending images and from there to the session's images, and
nothing on this way says which command it belongs to.
-/

namespace Rc2Compute.Files

open Transition

/-! ## Commands that draw -/

/-- The images of `acknowledgeExecComplete`: what `addImagesToJson` reports
after `cleanupImageWatch`. -/
def acknowledgeImages (envs : ℤ → Env) : Prog (List ℤ × ℤ) := do
  cleanupImageWatch envs
  checkWatch

/-- The session, the images the current command has drawn, the images that
were stored when it began, and whether it is still to be acknowledged. -/
structure Drawing where
  world : World
  drawn : List (String × Bytes)
  earlier : Map ℤ ImageRow
  running : Bool

/-- A command begins, R draws an image, the loop delivers some events or the
ignore-off timer, and a command that succeeded is acknowledged.  A command
that ends in an R error is followed by the next one. -/
inductive DrawOp where
  | exec
  | draw (name : String) (data : Bytes)
  | deliver (envs : List Env)
  | ignoreOff
  | complete (envs : ℤ → Env)

namespace Drawing

def step (s : Drawing) : DrawOp → Drawing
  | .exec =>
      { world := (resetWatch s.world).2
        drawn := []
        earlier := s.world.db.committed.sessionimage
        running := true }
  | .draw name data =>
      { s with
        world := s.world.writeFile .other name data
        drawn := s.drawn ++ [(name, data)] }
  | .deliver envs =>
      { s with world := (handleInotifyEvent
          (envs.zip s.world.inotify.unread)
          (s.world.readEvents envs.length)).2 }
  | .ignoreOff =>
      if 0 < s.world.fm.ignoreOffTimers then
        { s with world := (handleIgnoreFSNotesOff s.world).2 }
      else
        s
  | .complete envs =>
      { s with
        world := (acknowledgeImages envs s.world).2
        drawn := []
        running := false }

/-- Every event of a new image has been delivered. -/
def Delivered (events : List InotifyEvent) : Prop :=
  ∀ event ∈ events, event.evtype ≠ IN_CREATE

instance (events : List InotifyEvent) : Decidable (Delivered events) :=
  inferInstanceAs (Decidable (∀ _ ∈ _, _))

/-- A command draws new image files while it runs; its events are delivered
before its acknowledgement and before the next command; descriptors and
identifiers are new when they are handed out. -/
def Valid (s : Drawing) : DrawOp → Prop
  | .exec => Delivered s.world.inotify.unread
  | .draw name _ =>
      s.running = true ∧ matchImage name ≠ none ∧ s.world.disk[name]? = none
  | .deliver envs =>
      (envs.map Env.newWd).Nodup ∧ ∀ env ∈ envs, env.newWd ≠ -1 ∧
        s.world.fm.pendingImagesByWatchDesc[env.newWd]? = none
  | .ignoreOff => True
  | .complete envs =>
      s.running = true ∧ Delivered s.world.inotify.unread ∧
        (s.world.fm.pendingImagesByWatchDesc.toList.map
          fun entry => (envs entry.1).newId).Nodup ∧
        ∀ wd, 0 < (envs wd).newId ∧
          s.world.db.committed.sessionimage[(envs wd).newId]? = none

/-- The identifiers are those of the images drawn: each is new, and their
rows hold the images. -/
def Attributes (s : Drawing) (tables : Tables) (ids : List ℤ) : Prop :=
  ids.Nodup ∧ (∀ id ∈ ids, s.earlier[id]? = none) ∧
    ∃ images, images.Perm s.drawn ∧
      List.Forall₂ (fun id image =>
        (tables.sessionimage[id]?).map ImageRow.imgdata = some image.2)
        ids images

/-- An acknowledgement reports the images of its own command. -/
def OwnImages (s : Drawing) : DrawOp → Prop
  | .complete envs => ∃ ids batch,
      (acknowledgeImages envs s.world).1 = .returned (ids, batch) ∧
        Attributes s (s.step (.complete envs)).world.db.committed ids
  | _ => True

/-- A command begins with no image pending, images are neither empty nor too
large, no event of a new image is read in the open window, and the calls to
the kernel and the database succeed. -/
def Undisturbed (s : Drawing) : DrawOp → Prop
  | .exec => ∀ wd : ℤ, s.world.fm.pendingImagesByWatchDesc[wd]? = none
  | .draw _ data => 0 < data.length ∧ data.length < 2 ^ 31
  | .deliver envs =>
      (s.world.fm.ignoreFSNotifications = true →
        Delivered (s.world.inotify.unread.take envs.length)) ∧
      ∀ env ∈ envs, env.fails .inotifyAddWatch = false
  | .ignoreOff => True
  | .complete envs => ∀ wd, (envs wd).Succeeds

/-! ## Storing one image -/

/-- The image has been stored under `id` and its file is gone. -/
structure Stored (w w' : World) (id : ℤ) (fname : String) (data : Bytes) :
    Prop where
  imageIds : w'.fm.imageIds = w.fm.imageIds ++ [id]
  pending : w'.fm.pendingImagesByWatchDesc = w.fm.pendingImagesByWatchDesc
  row : ∃ row : ImageRow, row.imgdata = data ∧
    ∀ k : ℤ, w'.db.committed.sessionimage[k]? =
      if id = k then some row else w.db.committed.sessionimage[k]?
  disk : ∀ name : String, w'.disk[name]? =
    if fname = name then none else w.disk[name]?
  inotify : w'.inotify = (w.removeFile .other fname).inotify
  idle : w'.db.transaction = none

theorem insertImage_stored {env : Env} {w : World} {fname imgNumStr : String}
    {data : Bytes} (henv : env.Succeeds) (hidle : w.db.transaction = none)
    (hdata : w.disk[fname]? = some data) (hpos : 0 < data.length)
    (hsize : data.length < 2 ^ 31) (hid : 0 < env.newId)
    (hfresh : w.db.committed.sessionimage[env.newId]? = none) :
    Act.wp (insertImage env fname imgNumStr)
      (fun _ w' => Stored w w' env.newId fname data) (fun _ _ => False)
      w := by
  obtain ⟨batch, hbatch⟩ := startImageBatch_returns (w := w)
    fun _ => henv.calls .selectBatch
  let row : ImageRow :=
    ⟨w.fm.sessionRecId, batch, "img" ++ toString env.newId ++ ".png", data⟩
  let w₁ : World :=
    { w with
      fm := { w.fm with
        sessionImageBatch := batch
        imageIds := w.fm.imageIds ++ [env.newId] }
      db := ⟨{ w.db.committed with
        sessionimage := w.db.committed.sessionimage.insert env.newId row },
        none⟩ }
  have hnotIn : env.newId ∉ w.db.committed.sessionimage := by
    rw [Std.TreeMap.mem_iff_isSome_getElem?, hfresh]
    decide
  have hread : readFileBlob env fname w = (.returned data, w) :=
    readFileBlob_succeeds henv hdata
  have hrun : insertImage env fname imgNumStr w =
      (.returned (), (windowOpened w₁).removeFile .other fname) := by
    rw [insertImage, Act.bind_apply_returned hread, if_neg (by omega),
      longFromQuery, henv.calls .nextImageId, if_neg (by decide),
      Act.bind_apply_returned (Act.pure_apply _ _),
      Act.bind_apply_returned (Act.throwIf_apply_of_not (by omega) _ _),
      Act.bind_apply_returned hbatch,
      Act.bind_apply_returned (Act.get_apply _)]
    simp [executeQuery, Act.bind_apply, hidle, henv.calls _, hnotIn,
      byteaParam_of_lt hsize, Act.throwIf, ignoreFSNotifications_apply, w₁,
      row]
  refine Act.wp_of_apply hrun ⟨?_, ?_, ⟨row, rfl, fun k => ?_⟩,
    fun name => ?_, ?_, ?_⟩
  · rw [removeFile_fm, windowOpened_eq]
    split <;> rfl
  · rw [removeFile_fm, windowOpened_eq]
    split <;> rfl
  · rw [removeFile_db, windowOpened_db]
    exact Map.getElem?_insert _ _ _ _
  · rw [removeFile_disk, Map.getElem?_erase, windowOpened_disk]
  · unfold World.removeFile
    rw [windowOpened_disk, windowOpened_inotify]
    split
    · rfl
    · exact windowOpened_inotify w₁
  · rw [removeFile_db, windowOpened_db]

/-! ## Storing what is pending -/

/-- The mask of the watch on an image. -/
def imageMask : UInt32 := IN_CLOSE_WRITE ||| IN_CLOSE_NOWRITE

/-- An event that the handler has no branch for. -/
def Quiet (event : InotifyEvent) : Prop :=
  event.evtype ∉ [IN_CREATE, IN_CLOSE_WRITE, IN_DELETE_SELF, IN_OPEN,
    IN_MODIFY]

theorem quiet_IN_DELETE {wd : ℤ} {name : String} {writer : Writer} :
    Quiet ⟨wd, IN_DELETE, name, writer⟩ := by
  have h : IN_DELETE &&& 0xffff ∉ [IN_CREATE, IN_CLOSE_WRITE,
      IN_DELETE_SELF, IN_OPEN, IN_MODIFY] := by decide
  exact h

theorem quiet_IN_IGNORED {wd : ℤ} {name : String} {writer : Writer} :
    Quiet ⟨wd, IN_IGNORED, name, writer⟩ := by
  have h : IN_IGNORED &&& 0xffff ∉ [IN_CREATE, IN_CLOSE_WRITE,
      IN_DELETE_SELF, IN_OPEN, IN_MODIFY] := by decide
  exact h

/-- No transaction is open, watches are on files that exist, and nothing that
is unread will be acted on. -/
structure Calm (w : World) : Prop where
  idle : w.db.transaction = none
  watched : ∀ (wd : ℤ) (watch : Watch),
    w.inotify.watches[wd]? = some watch →
      w.disk[watch.path]? ≠ none
  quiet : ∀ event ∈ w.inotify.unread, Quiet event

/-- The file holds a drawn image; only image watches are on it. -/
structure ImageFile (w : World) (fname : String) (data : Bytes) : Prop where
  onDisk : w.disk[fname]? = some data
  nonempty : 0 < data.length
  fits : data.length < 2 ^ 31
  masks : ∀ (wd : ℤ) (watch : Watch),
    w.inotify.watches[wd]? = some watch →
      watch.path = fname → watch.mask = imageMask

/-- The image has left the directory and is stored under `id`. -/
structure Shelved (w w' : World) (id : ℤ) (fname : String) (data : Bytes) :
    Prop where
  calm : Calm w'
  imageIds : w'.fm.imageIds = w.fm.imageIds ++ [id]
  row : ∃ row : ImageRow, row.imgdata = data ∧
    ∀ k : ℤ, w'.db.committed.sessionimage[k]? =
      if id = k then some row else w.db.committed.sessionimage[k]?
  disk : ∀ name : String, w'.disk[name]? =
    if fname = name then none else w.disk[name]?
  watches : ∀ (wd : ℤ) (watch : Watch),
    w'.inotify.watches[wd]? = some watch →
      w.inotify.watches[wd]? = some watch
  rootDir : w'.inotify.rootDir = w.inotify.rootDir

theorem removeFile_watches {w : World} {writer : Writer} {name : String}
    {wd : ℤ} {watch : Watch}
    (h : (w.removeFile writer name).inotify.watches[wd]? = some watch) :
    w.inotify.watches[wd]? = some watch ∧
      (w.disk[name]? ≠ none → watch.path ≠ name) := by
  unfold World.removeFile at h
  split at h
  next =>
    rw [Std.TreeMap.getElem?_filter', Option.filter_eq_some_iff] at h
    exact ⟨h.1, fun _ => by simpa using h.2⟩
  next hmissing =>
    refine ⟨h, fun hexists => absurd ?_ hmissing⟩
    rw [Std.TreeMap.contains_eq_isSome_getElem?, Option.isSome_iff_ne_none]
    exact hexists

theorem removeFile_rootDir (w : World) (writer : Writer) (name : String) :
    (w.removeFile writer name).inotify.rootDir = w.inotify.rootDir := by
  unfold World.removeFile
  split <;> rfl

/-- Removing an image file queues nothing that is acted on. -/
theorem ImageFile.quiet_removeFile {w : World} {fname : String}
    {data : Bytes} (h : ImageFile w fname data) (writer : Writer)
    (hquiet : ∀ event ∈ w.inotify.unread, Quiet event) :
    ∀ event ∈ (w.removeFile writer fname).inotify.unread, Quiet event := by
  intro event hevent
  unfold World.removeFile at hevent
  split at hevent
  next =>
    simp only [List.mem_append] at hevent
    rcases hevent with (hold | hfile) | hroot
    · exact hquiet event hold
    · obtain ⟨watch, hwatch, hpath, hmask, hasked, -⟩ := mem_fileEvents.mp hfile
      rw [List.mem_singleton.mp hmask, h.masks _ _ hwatch hpath] at hasked
      exact absurd hasked (by decide)
    · unfold Inotify.rootEvents at hroot
      split at hroot
      · rw [List.mem_singleton.mp hroot]
        exact quiet_IN_DELETE
      · cases hroot
  next => exact hquiet event hevent

theorem inotify_rm_watch_calm {w : World} (h : Calm w) (wd : ℤ) :
    Act.wp (inotify_rm_watch wd)
      (fun _ w' => Calm w' ∧ w'.fm = w.fm ∧ w'.disk = w.disk ∧
        w'.db = w.db ∧ w'.inotify.rootDir = w.inotify.rootDir ∧
        ∀ (k : ℤ) (watch : Watch), w'.inotify.watches[k]? = some watch →
          w.inotify.watches[k]? = some watch)
      (fun _ _ => False) w := by
  rw [inotify_rm_watch, Act.wp_modify]
  beta_reduce
  split
  · have hwatches : ∀ (k : ℤ) (watch : Watch), (w.inotify.watches.erase wd)[k]? =
        some watch → w.inotify.watches[k]? = some watch := by
      intro k watch hk
      rw [Map.getElem?_erase] at hk
      split at hk
      · cases hk
      · exact hk
    refine ⟨⟨h.idle, fun k watch hk => h.watched k watch (hwatches k watch hk),
      fun event hevent => ?_⟩, rfl, rfl, rfl, rfl, hwatches⟩
    rcases List.mem_append.mp hevent with hold | hnew
    · exact h.quiet event hold
    · rw [List.mem_singleton.mp hnew]
      exact quiet_IN_IGNORED
  · exact ⟨h, rfl, rfl, rfl, rfl, fun _ _ hk => hk⟩

/-- The body of the loop of `cleanupImageWatch`. -/
def shelveImage (envs : ℤ → Env) (entry : ℤ × PendingImage) : Prog Unit := do
  let _size ← fileSize (envs entry.1) entry.2.fileName
  insertImage (envs entry.1) entry.2.fileName entry.2.imgNumStr
  inotify_rm_watch entry.2.wd

theorem shelveImage_shelved {envs : ℤ → Env} {entry : ℤ × PendingImage}
    {w : World} {data : Bytes} (h : Calm w)
    (henv : (envs entry.1).Succeeds)
    (hfile : ImageFile w entry.2.fileName data)
    (hid : 0 < (envs entry.1).newId)
    (hfresh : w.db.committed.sessionimage[(envs entry.1).newId]? = none) :
    Act.wp (shelveImage envs entry)
      (fun _ w' =>
        Shelved w w' (envs entry.1).newId entry.2.fileName data)
      (fun _ _ => False) w := by
  have hsize : fileSize (envs entry.1) entry.2.fileName w =
      (.returned data.length, w) := by
    simp [fileSize, Act.bind_apply, henv.calls _, hfile.onDisk]
  rw [shelveImage, Act.wp_bind]
  refine Act.wp_of_apply hsize ?_
  rw [Act.wp_bind]
  refine (insertImage_stored henv h.idle hfile.onDisk hfile.nonempty
    hfile.fits hid hfresh).mono ?_ fun _ _ h => h
  rintro _ w₁ ⟨himages, -, hrow, hdisk, hinotify, hidle⟩
  have hcalm₁ : Calm w₁ := by
    refine ⟨hidle, fun wd watch hwatch => ?_, fun event hevent => ?_⟩
    · rw [hinotify] at hwatch
      obtain ⟨hold, hpath⟩ := removeFile_watches hwatch
      have hne := hpath (by rw [hfile.onDisk]; exact Option.some_ne_none _)
      rw [hdisk, if_neg fun heq => hne heq.symm]
      exact h.watched wd watch hold
    · rw [hinotify] at hevent
      exact hfile.quiet_removeFile .other h.quiet event hevent
  refine (inotify_rm_watch_calm hcalm₁ entry.2.wd).mono ?_ fun _ _ h => h
  rintro _ w₂ ⟨hcalm, hfm, hdisk₂, hdb, hroot, hwatches⟩
  refine ⟨hcalm, by rw [hfm, himages], by rwa [hdb], fun name => ?_,
    fun wd watch hwatch => ?_, ?_⟩
  · rw [hdisk₂, hdisk]
  · have hold := hwatches wd watch hwatch
    rw [hinotify] at hold
    exact (removeFile_watches hold).1
  · rw [hroot, hinotify, removeFile_rootDir]

/-- What the loop of `cleanupImageWatch` leaves: a new identifier for every
entry, whose row holds the entry's file. -/
structure ShelvedAll (envs : ℤ → Env) (entries : List (ℤ × PendingImage))
    (w w' : World) : Prop where
  calm : Calm w'
  rootDir : w'.inotify.rootDir = w.inotify.rootDir
  imageIds : w'.fm.imageIds =
    w.fm.imageIds ++ entries.map fun entry => (envs entry.1).newId
  rows : ∀ entry ∈ entries,
    (w'.db.committed.sessionimage[(envs entry.1).newId]?).map
      ImageRow.imgdata = w.disk[entry.2.fileName]?
  others : ∀ id, id ∉ entries.map (fun entry => (envs entry.1).newId) →
    w'.db.committed.sessionimage[id]? = w.db.committed.sessionimage[id]?

theorem forEach_shelveImage {envs : ℤ → Env}
    {entries : List (ℤ × PendingImage)} {w : World} (h : Calm w)
    (henv : ∀ wd, (envs wd).Succeeds)
    (hnames : (entries.map fun entry => entry.2.fileName).Nodup)
    (hids : (entries.map fun entry => (envs entry.1).newId).Nodup)
    (hfiles : ∀ entry ∈ entries, ∃ data, ImageFile w entry.2.fileName data)
    (hfresh : ∀ entry ∈ entries, 0 < (envs entry.1).newId ∧
      w.db.committed.sessionimage[(envs entry.1).newId]? = none) :
    Act.wp (Act.forEach entries (shelveImage envs))
      (fun _ w' => ShelvedAll envs entries w w') (fun _ _ => False) w := by
  induction entries generalizing w with
  | nil => exact ⟨h, rfl, by simp, by simp, fun _ _ => rfl⟩
  | cons entry entries ih =>
      obtain ⟨data, hfile⟩ := hfiles entry (by simp)
      obtain ⟨hid, hnew⟩ := hfresh entry (by simp)
      simp only [List.map_cons, List.nodup_cons, List.mem_map,
        not_exists, not_and] at hnames hids
      rw [Act.forEach_cons, Act.wp_bind]
      refine (shelveImage_shelved h (henv _) hfile hid hnew).mono ?_
        fun _ _ h => h
      intro _ w₁ h₁
      obtain ⟨row, hdata, hrow⟩ := h₁.row
      -- the other entries have other files and other identifiers
      have hname : ∀ other ∈ entries,
          entry.2.fileName ≠ other.2.fileName :=
        fun other hother heq => hnames.1 other hother heq.symm
      have hother : ∀ other ∈ entries,
          (envs entry.1).newId ≠ (envs other.1).newId :=
        fun other hmem heq => hids.1 other hmem heq.symm
      have hfiles₁ : ∀ other ∈ entries,
          ∃ data, ImageFile w₁ other.2.fileName data := by
        intro other hmem
        obtain ⟨data', honDisk, hpos, hfits, hmasks⟩ :=
          hfiles other (by simp [hmem])
        refine ⟨data', ?_, hpos, hfits, fun wd watch hwatch =>
          hmasks wd watch (h₁.watches wd watch hwatch)⟩
        rw [h₁.disk, if_neg (hname other hmem), honDisk]
      have hfresh₁ : ∀ other ∈ entries, 0 < (envs other.1).newId ∧
          w₁.db.committed.sessionimage[(envs other.1).newId]? = none := by
        intro other hmem
        obtain ⟨hpos, hnone⟩ := hfresh other (by simp [hmem])
        exact ⟨hpos, by rw [hrow, if_neg (hother other hmem), hnone]⟩
      refine (ih h₁.calm hnames.2 hids.2 hfiles₁ hfresh₁).mono ?_
        fun _ _ h => h
      intro _ w₂ h₂
      refine ⟨h₂.calm, h₂.rootDir.trans h₁.rootDir, ?_, ?_, ?_⟩
      · rw [h₂.imageIds, h₁.imageIds]
        simp
      · intro other hmem
        rcases List.mem_cons.mp hmem with rfl | hmem
        · have hkept := h₂.others (envs other.1).newId (by
            simp only [List.mem_map, not_exists, not_and]
            exact fun e he heq => hother e he heq.symm)
          rw [hkept, hrow, if_pos rfl, hfile.onDisk]
          exact congrArg some hdata
        · rw [h₂.rows other hmem, h₁.disk, if_neg (hname other hmem)]
      · intro id hnotIn
        simp only [List.map_cons, List.mem_cons, not_or] at hnotIn
        rw [h₂.others id hnotIn.2, hrow, if_neg fun heq => hnotIn.1 heq.symm]

/-! ## The way of an image -/

/-- The files whose creation these events announce. -/
def createdNames (events : List InotifyEvent) : List String :=
  (events.filter fun event => event.evtype = IN_CREATE).map InotifyEvent.name

/-- The files of the pending images. -/
def pendingNames (w : World) : List String :=
  w.fm.pendingImagesByWatchDesc.toList.map fun entry => entry.2.fileName

/-- Every image drawn is announced by an event or pending, and nothing else
is; `events` are those that the session has not handled. -/
structure Collects (w : World) (events : List InotifyEvent)
    (drawn : List (String × Bytes)) : Prop where
  idle : w.db.transaction = none
  root : ∃ wd, w.inotify.rootDir = some wd
  watched : ∀ (wd : ℤ) (watch : Watch),
    w.inotify.watches[wd]? = some watch → w.disk[watch.path]? ≠ none
  known : ∀ event ∈ events,
    Quiet event ∨ event.mask = IN_CREATE ∧ matchImage event.name ≠ none
  announced : (createdNames events ++ pendingNames w).Perm
    (drawn.map Prod.fst)
  names : (drawn.map Prod.fst).Nodup
  images : ∀ image ∈ drawn, ImageFile w image.1 image.2

/-- The invariant reads the disk, the watches, the pending images and whether
a transaction is open. -/
theorem Collects.congr {w w' : World} {events : List InotifyEvent}
    {drawn : List (String × Bytes)} (h : Collects w events drawn)
    (hidle : w'.db.transaction = w.db.transaction)
    (hdisk : w'.disk = w.disk)
    (hwatches : w'.inotify.watches = w.inotify.watches)
    (hroot : w'.inotify.rootDir = w.inotify.rootDir)
    (hpending : w'.fm.pendingImagesByWatchDesc =
      w.fm.pendingImagesByWatchDesc) : Collects w' events drawn := by
  refine ⟨by rw [hidle, h.idle], by rw [hroot]; exact h.root, ?_, h.known,
    ?_, h.names, fun p hp => ?_⟩
  · rw [hdisk, hwatches]
    exact h.watched
  · rw [pendingNames, hpending]
    exact h.announced
  · obtain ⟨honDisk, hpos, hfits, hmasks⟩ := h.images p hp
    exact ⟨hdisk ▸ honDisk, hpos, hfits, hwatches ▸ hmasks⟩

theorem createdNames_append (events rest : List InotifyEvent) :
    createdNames (events ++ rest) =
      createdNames events ++ createdNames rest := by
  simp [createdNames]

theorem createdNames_of_delivered {events : List InotifyEvent}
    (h : Delivered events) : createdNames events = [] := by
  rw [createdNames, List.map_eq_nil_iff, List.filter_eq_nil_iff]
  intro event hevent
  simpa using h event hevent

/-- The state in which an image is watched. -/
def imageWatched (w : World) (wd : ℤ) (fname imgNum : String) : World :=
  { w with
    fm := { w.fm with
      pendingImagesByWatchDesc :=
        w.fm.pendingImagesByWatchDesc.insertIfNew wd ⟨fname, imgNum, wd⟩ }
    inotify := { w.inotify with
      watches := w.inotify.watches.insert wd ⟨fname, imageMask⟩ } }

/-- The name of an image file is a visible one. -/
theorem head_ne_dot_of_matchImage {fname : String}
    (h : matchImage fname ≠ none) : fname.toList.head? ≠ some '.' := by
  intro hdot
  refine h (if_neg ?_)
  rintro ⟨hstart, -⟩
  have hhead : (fname.toList.take 6).head? = some '.' := by
    rw [List.head?_take]
    simpa using hdot
  rw [hstart] at hhead
  revert hhead
  decide

theorem handleEvent_image {env : Env} {w : World} {event : InotifyEvent}
    {imgNum : String} (hmask : event.mask = IN_CREATE)
    (himage : matchImage event.name = some imgNum)
    (hadd : env.fails .inotifyAddWatch = false) (hwd : env.newWd ≠ -1) :
    handleEvent env event w =
      (.returned (), imageWatched w env.newWd event.name imgNum) := by
  have htype : event.evtype = IN_CREATE := by
    rw [InotifyEvent.evtype, hmask]
    decide
  have hvisible : ¬ (event.mask &&& IN_ISDIR ≠ 0 ∨
      event.name.toList.head? = some '.') := by
    rintro (hdir | hdot)
    · rw [hmask] at hdir
      exact absurd hdir (by decide)
    · refine head_ne_dot_of_matchImage ?_ hdot
      rw [himage]
      exact Option.some_ne_none imgNum
  have hcreate : handleCreate env event =
      startImageWatch env event.name imgNum := by
    rw [handleCreate, if_neg hvisible, himage]
  have hstart : startImageWatch env event.name imgNum w =
      (.returned (), imageWatched w env.newWd event.name imgNum) := by
    simp [startImageWatch, inotify_add_watch, Act.bind_apply, hadd, hwd,
      Act.throwIf, imageWatched, imageMask]
  rw [handleEvent, if_pos htype, hcreate,
    Act.tryCatch_apply_returned hstart]

theorem handleEvent_quiet {env : Env} {w : World} {event : InotifyEvent}
    (h : Quiet event) : handleEvent env event w = (.returned (), w) := by
  simp only [Quiet, List.mem_cons, List.not_mem_nil, or_false, not_or] at h
  obtain ⟨hcreate, hclose, hdelete, hopen, hmodify⟩ := h
  rw [handleEvent, if_neg hcreate, if_neg hclose, if_neg hdelete,
    if_neg (not_or.mpr ⟨hopen, hmodify⟩)]
  rfl

/-- What handling one event leaves alone. -/
structure Aside (w w' : World) (wd : ℤ) : Prop where
  unread : w'.inotify.unread = w.inotify.unread
  imageIds : w'.fm.imageIds = w.fm.imageIds
  db : w'.db = w.db
  pending : ∀ k : ℤ, k ≠ wd → w'.fm.pendingImagesByWatchDesc[k]? =
    w.fm.pendingImagesByWatchDesc[k]?

/-- An image goes from the events to the pending images. -/
theorem Collects.handleEvent {env : Env} {event : InotifyEvent}
    {rest : List InotifyEvent} {w : World} {drawn : List (String × Bytes)}
    (h : Collects w (event :: rest) drawn)
    (hadd : env.fails .inotifyAddWatch = false) (hwd : env.newWd ≠ -1)
    (hnew : w.fm.pendingImagesByWatchDesc[env.newWd]? = none) :
    ∃ w', handleEvent env event w = (.returned (), w') ∧
      Collects w' rest drawn ∧ Aside w w' env.newWd := by
  rcases h.known event (by simp) with hquiet | ⟨hmask, himage⟩
  · have hnames : createdNames (event :: rest) = createdNames rest := by
      simp only [Quiet, List.mem_cons, not_or] at hquiet
      simp [createdNames, hquiet.1]
    refine ⟨w, handleEvent_quiet hquiet, ?_, ⟨rfl, rfl, rfl, fun _ _ => rfl⟩⟩
    exact ⟨h.idle, h.root, h.watched, fun e he => h.known e (by simp [he]),
      hnames ▸ h.announced, h.names, h.images⟩
  · obtain ⟨imgNum, himgNum⟩ := Option.ne_none_iff_exists'.mp himage
    have htype : event.evtype = IN_CREATE := by
      rw [InotifyEvent.evtype, hmask]
      decide
    have hnames : createdNames (event :: rest) =
        event.name :: createdNames rest := by
      simp [createdNames, htype]
    have hpending : ∀ k : ℤ,
        (w.fm.pendingImagesByWatchDesc.insertIfNew env.newWd
          ⟨event.name, imgNum, env.newWd⟩)[k]? =
          if env.newWd = k then some ⟨event.name, imgNum, env.newWd⟩
          else w.fm.pendingImagesByWatchDesc[k]? :=
      fun k => Map.getElem?_insertIfNew_of_none _ _ hnew
    have hpendingNames :
        (pendingNames (imageWatched w env.newWd event.name imgNum)).Perm
          (event.name :: pendingNames w) :=
      (Map.toList_perm_cons hnew hpending).map _
    have hmem : event.name ∈ drawn.map Prod.fst := by
      refine h.announced.mem_iff.mp ?_
      rw [hnames]
      simp
    obtain ⟨image, himage, hname⟩ := List.mem_map.mp hmem
    refine ⟨_, handleEvent_image hmask himgNum hadd hwd, ⟨h.idle, h.root,
      fun wd watch hwatch => ?_, fun e he => h.known e (by simp [he]), ?_,
      h.names, fun p hp => ?_⟩, ⟨rfl, rfl, rfl, fun k hk => ?_⟩⟩
    · simp only [imageWatched, Map.getElem?_insert] at hwatch
      split at hwatch
      · obtain rfl := Option.some.inj hwatch
        have honDisk := (h.images image himage).onDisk
        rw [hname] at honDisk
        exact honDisk ▸ Option.some_ne_none _
      · exact h.watched wd watch hwatch
    · refine (hpendingNames.append_left _).trans ?_
      refine List.perm_middle.trans ?_
      have hannounced := h.announced
      rwa [hnames] at hannounced
    · obtain ⟨honDisk, hpos, hfits, hmasks⟩ := h.images p hp
      refine ⟨honDisk, hpos, hfits, fun wd watch hwatch hpath => ?_⟩
      simp only [imageWatched, Map.getElem?_insert] at hwatch
      split at hwatch
      · exact (Option.some.inj hwatch) ▸ rfl
      · exact hmasks wd watch hwatch hpath
    · exact (hpending k).trans (if_neg fun heq => hk heq.symm)

/-- A batch that is handled moves its images to the pending ones. -/
theorem Collects.forEach_handleEvent {batch : List (Env × InotifyEvent)}
    {rest : List InotifyEvent} {w : World} {drawn : List (String × Bytes)}
    (h : Collects w (batch.map Prod.snd ++ rest) drawn)
    (hnodup : (batch.map fun entry => entry.1.newWd).Nodup)
    (hadd : ∀ entry ∈ batch, entry.1.fails .inotifyAddWatch = false)
    (hwd : ∀ entry ∈ batch, entry.1.newWd ≠ -1 ∧
      w.fm.pendingImagesByWatchDesc[entry.1.newWd]? = none) :
    Act.wp (Act.forEach batch fun entry => Files.handleEvent entry.1 entry.2)
      (fun _ w' => Collects w' rest drawn ∧
        w'.inotify.unread = w.inotify.unread ∧
        w'.fm.imageIds = w.fm.imageIds ∧ w'.db = w.db)
      (fun _ _ => False) w := by
  induction batch generalizing w with
  | nil => exact ⟨h, rfl, rfl, rfl⟩
  | cons entry batch ih =>
      simp only [List.map_cons, List.nodup_cons, List.mem_map, not_exists,
        not_and] at hnodup
      obtain ⟨hvalid, hnew⟩ := hwd entry (by simp)
      obtain ⟨w₁, hrun, h₁, haside⟩ :=
        h.handleEvent (hadd entry (by simp)) hvalid hnew
      rw [Act.forEach_cons, Act.wp_bind]
      refine Act.wp_of_apply hrun ?_
      have hwd₁ : ∀ other ∈ batch, other.1.newWd ≠ -1 ∧
          w₁.fm.pendingImagesByWatchDesc[other.1.newWd]? = none := by
        intro other hmem
        obtain ⟨hne, hnone⟩ := hwd other (by simp [hmem])
        exact ⟨hne, by rw [haside.pending _ (hnodup.1 other hmem), hnone]⟩
      refine (ih h₁ hnodup.2 (fun e he => hadd e (by simp [he])) hwd₁).mono ?_
        fun _ _ h => h
      rintro _ w₂ ⟨h₂, hunread, himages, hdb⟩
      exact ⟨h₂, hunread.trans haside.unread, himages.trans haside.imageIds,
        hdb.trans haside.db⟩

/-! ## Runs -/

/-- The invariant: the images of the current command are on their way, and a
command that runs has stored none. -/
structure Collecting (s : Drawing) : Prop where
  collects : Collects s.world s.world.inotify.unread s.drawn
  unstored : s.running = true → s.world.fm.imageIds = [] ∧
    s.world.db.committed.sessionimage = s.earlier

theorem exec_collecting {s : Drawing} (h : Collecting s)
    (hvalid : s.Valid .exec) (hundisturbed : s.Undisturbed .exec) :
    Collecting (s.step .exec) := by
  obtain ⟨hidle, hroot, hwatched, hknown, -, -, -⟩ := h.collects
  have hnone : pendingNames s.world = [] := by
    rw [pendingNames, Map.toList_eq_nil hundisturbed]
    rfl
  refine ⟨⟨hidle, hroot, hwatched, hknown, ?_, List.nodup_nil, ?_⟩,
    fun _ => ⟨rfl, rfl⟩⟩
  · have hempty : createdNames s.world.inotify.unread ++
        pendingNames s.world = [] := by
      rw [createdNames_of_delivered hvalid, hnone]
      rfl
    exact List.Perm.of_eq hempty
  · intro image himage
    cases himage

theorem draw_collecting {s : Drawing} {name : String} {data : Bytes}
    (h : Collecting s) (hvalid : s.Valid (.draw name data))
    (hundisturbed : s.Undisturbed (.draw name data)) :
    Collecting (s.step (.draw name data)) := by
  obtain ⟨-, himage, hnew⟩ := hvalid
  obtain ⟨hidle, ⟨rootWd, hroot⟩, hwatched, hknown, hannounced, hnames,
    himages⟩ := h.collects
  have hunwatched : ∀ (wd : ℤ) (watch : Watch),
      s.world.inotify.watches[wd]? = some watch → watch.path ≠ name := by
    rintro wd watch hwatch rfl
    exact hwatched wd watch hwatch hnew
  have hdrawn : name ∉ s.drawn.map Prod.fst := by
    intro hmem
    obtain ⟨image, hdrawn, rfl⟩ := List.mem_map.mp hmem
    rw [(himages image hdrawn).onDisk] at hnew
    cases hnew
  have hcontains : s.world.disk.contains name = false := by
    rw [Std.TreeMap.contains_eq_isSome_getElem?, hnew]
    rfl
  have hfile : s.world.inotify.fileEvents .other name
      [IN_OPEN, IN_MODIFY, IN_CLOSE_WRITE] = [] := by
    refine List.eq_nil_iff_forall_not_mem.mpr fun event hevent => ?_
    obtain ⟨watch, hwatch, hpath, -⟩ := mem_fileEvents.mp hevent
    exact hunwatched _ _ hwatch hpath
  let created : InotifyEvent := ⟨rootWd, IN_CREATE, name, .other⟩
  have hunread : (s.world.writeFile .other name data).inotify.unread =
      s.world.inotify.unread ++ [created] := by
    simp [World.writeFile, hcontains, Inotify.rootEvents, hroot, hfile,
      created]
  have hcreated : created.evtype = IN_CREATE := by
    have hmask : IN_CREATE &&& 0xffff = IN_CREATE := by decide
    exact hmask
  refine ⟨⟨hidle, ⟨rootWd, hroot⟩, fun wd watch hwatch => ?_,
    fun event hevent => ?_, ?_, ?_, fun p hp => ?_⟩, h.unstored⟩
  · have hne : name ≠ watch.path := fun heq =>
      hunwatched wd watch hwatch heq.symm
    simpa [step, World.writeFile, Map.getElem?_insert, hne] using
      hwatched wd watch hwatch
  · have hevent' : event ∈ s.world.inotify.unread ++ [created] :=
      hunread ▸ hevent
    rcases List.mem_append.mp hevent' with hold | hnewEvent
    · exact hknown event hold
    · obtain rfl := List.mem_singleton.mp hnewEvent
      exact Or.inr ⟨rfl, himage⟩
  · have hstep : (s.step (.draw name data)).world.inotify.unread =
        s.world.inotify.unread ++ [created] := hunread
    have hone : createdNames [created] = [name] := by
      simp [createdNames, hcreated, created]
    rw [hstep, createdNames_append, hone]
    have hmap : (s.step (.draw name data)).drawn.map Prod.fst =
        s.drawn.map Prod.fst ++ [name] := by
      simp [step]
    rw [hmap, List.append_assoc]
    refine (List.perm_append_comm.append_left _).trans ?_
    rw [← List.append_assoc]
    exact hannounced.append_right [name]
  · simp only [step, List.map_append, List.map_cons, List.map_nil]
    refine List.nodup_append.mpr ⟨hnames, by simp, ?_⟩
    intro a ha b hb
    obtain rfl := List.mem_singleton.mp hb
    exact fun heq => hdrawn (heq ▸ ha)
  · rcases List.mem_append.mp hp with hold | hnewImage
    · obtain ⟨honDisk, hpos, hfits, hmasks⟩ := himages p hold
      have hne : name ≠ p.1 := fun heq =>
        hdrawn (heq ▸ List.mem_map_of_mem hold)
      refine ⟨?_, hpos, hfits, hmasks⟩
      simpa [step, World.writeFile, Map.getElem?_insert, hne] using honDisk
    · obtain rfl := List.mem_singleton.mp hnewImage
      refine ⟨?_, hundisturbed.1, hundisturbed.2,
        fun wd watch hwatch hpath => absurd hpath
          (hunwatched wd watch hwatch)⟩
      simp [step, World.writeFile]

/-- Events that announce nothing can be dropped. -/
theorem Collects.drop {w : World} {events rest : List InotifyEvent}
    {drawn : List (String × Bytes)} (h : Collects w (events ++ rest) drawn)
    (hdelivered : Delivered events) : Collects w rest drawn := by
  refine ⟨h.idle, h.root, h.watched, fun event hevent => h.known event
    (List.mem_append_right _ hevent), ?_, h.names, h.images⟩
  have hannounced := h.announced
  rwa [createdNames_append, createdNames_of_delivered hdelivered,
    List.nil_append] at hannounced

/-- When every event has been handled, the images drawn are the pending
ones. -/
theorem Collects.pendingNames_perm {w : World} {drawn : List (String × Bytes)}
    (h : Collects w w.inotify.unread drawn)
    (hdelivered : Delivered w.inotify.unread) :
    (pendingNames w).Perm (drawn.map Prod.fst) := by
  have hannounced := h.announced
  rwa [createdNames_of_delivered hdelivered, List.nil_append] at hannounced

theorem deliver_collecting {s : Drawing} {envs : List Env}
    (h : Collecting s) (hvalid : s.Valid (.deliver envs))
    (hundisturbed : s.Undisturbed (.deliver envs)) :
    Collecting (s.step (.deliver envs)) := by
  let w₀ := s.world.readEvents envs.length
  let batch := envs.zip s.world.inotify.unread
  have hread : ∀ events, Collects s.world events s.drawn →
      Collects w₀ events s.drawn := fun _ h => h.congr rfl rfl rfl rfl rfl
  cases hflag : s.world.fm.ignoreFSNotifications with
  | true =>
      have hrun : handleInotifyEvent batch w₀ = (.returned (), w₀) := by
        rw [handleInotifyEvent, Act.bind_apply_returned (Act.get_apply w₀)]
        exact congrFun (if_pos hflag) w₀
      have hstep : s.step (.deliver envs) = { s with world := w₀ } := by
        simp only [step]
        rw [hrun]
      rw [hstep]
      refine ⟨?_, h.unstored⟩
      have hsplit := h.collects
      rw [← List.take_append_drop envs.length s.world.inotify.unread]
        at hsplit
      exact hread _ (hsplit.drop (hundisturbed.1 hflag))
  | false =>
      have hcollects : Collects (windowOpened w₀)
          (batch.map Prod.snd ++ s.world.inotify.unread.drop envs.length)
          s.drawn := by
        rw [map_snd_zip_append_drop]
        rw [windowOpened_eq]
        split
        · exact hread _ h.collects
        · exact (hread _ h.collects).congr rfl rfl rfl rfl rfl
      have hnodup : (batch.map fun entry => entry.1.newWd).Nodup := by
        have hsub := (map_fst_zip_sublist envs
          s.world.inotify.unread).map Env.newWd
        rw [List.map_map] at hsub
        exact hvalid.1.sublist hsub
      have hclosed : ¬ w₀.fm.ignoreFSNotifications = true := by
        have hsame : w₀.fm.ignoreFSNotifications = false := hflag
        rw [hsame]
        decide
      have hloop := hcollects.forEach_handleEvent hnodup
        (fun entry hentry => hundisturbed.2 _ (List.of_mem_zip hentry).1)
        (fun entry hentry => by
          rw [windowOpened_pendingImagesByWatchDesc]
          exact hvalid.2 _ (List.of_mem_zip hentry).1)
      have hrun : Act.wp (handleInotifyEvent batch)
          (fun _ w' => Collects w'
              (s.world.inotify.unread.drop envs.length) s.drawn ∧
            w'.inotify.unread = (windowOpened w₀).inotify.unread ∧
            w'.fm.imageIds = (windowOpened w₀).fm.imageIds ∧
            w'.db = (windowOpened w₀).db)
          (fun _ _ => False) w₀ := by
        rw [handleInotifyEvent, Act.wp_bind, Act.wp_get]
        beta_reduce
        rw [if_neg hclosed, Act.wp_bind]
        exact Act.wp_of_apply (ignoreFSNotifications_apply w₀) hloop
      obtain ⟨h', hunread, hids, hdb⟩ :=
        (hrun.mono (fun _ _ h => h) fun _ _ h => h.elim).final
      refine ⟨?_, fun hrunning => ?_⟩
      · rw [windowOpened_inotify] at hunread
        have hstep : (s.step (.deliver envs)).world.inotify.unread =
            s.world.inotify.unread.drop envs.length := hunread
        rw [hstep]
        exact h'
      · obtain ⟨hempty, hearlier⟩ := h.unstored hrunning
        rw [windowOpened_imageIds] at hids
        refine ⟨hids.trans hempty, ?_⟩
        rw [windowOpened_db] at hdb
        exact (congrArg (fun db => db.committed.sessionimage) hdb).trans
          hearlier

theorem ignoreOff_collecting {s : Drawing} (h : Collecting s) :
    Collecting (s.step .ignoreOff) := by
  by_cases htimer : 0 < s.world.fm.ignoreOffTimers
  · rw [step, if_pos htimer]
    exact ⟨h.collects.congr rfl rfl rfl rfl rfl, h.unstored⟩
  · rw [step, if_neg htimer]
    exact h

/-- The acknowledgement shelves what is pending and reports it. -/
theorem acknowledgeImages_spec {envs : ℤ → Env} {w : World}
    {drawn : List (String × Bytes)}
    (h : Collects w w.inotify.unread drawn)
    (hdelivered : Delivered w.inotify.unread)
    (henv : ∀ wd, (envs wd).Succeeds)
    (hids : (w.fm.pendingImagesByWatchDesc.toList.map
      fun entry => (envs entry.1).newId).Nodup)
    (hfresh : ∀ wd, 0 < (envs wd).newId ∧
      w.db.committed.sessionimage[(envs wd).newId]? = none) :
    ∃ w₁, ShelvedAll envs w.fm.pendingImagesByWatchDesc.toList w w₁ ∧
      acknowledgeImages envs w =
        (.returned (w₁.fm.imageIds, w₁.fm.sessionImageBatch),
          { w₁ with fm :=
            { w₁.fm with pendingImagesByWatchDesc := ∅ } }) := by
  have hcalm : Calm w := by
    refine ⟨h.idle, h.watched, fun event hevent => ?_⟩
    rcases h.known event hevent with hquiet | ⟨hmask, -⟩
    · exact hquiet
    · refine absurd ?_ (hdelivered event hevent)
      rw [InotifyEvent.evtype, hmask]
      decide
  have hpending := h.pendingNames_perm hdelivered
  have hfiles : ∀ entry ∈ w.fm.pendingImagesByWatchDesc.toList,
      ∃ data, ImageFile w entry.2.fileName data := by
    intro entry hentry
    have hmem : entry.2.fileName ∈ drawn.map Prod.fst :=
      hpending.mem_iff.mp (List.mem_map_of_mem hentry)
    obtain ⟨image, himage, hname⟩ := List.mem_map.mp hmem
    exact ⟨image.2, hname ▸ h.images image himage⟩
  have hloop := forEach_shelveImage hcalm henv
    (hpending.nodup_iff.mpr h.names) hids hfiles
    fun entry _ => hfresh entry.1
  obtain ⟨w₁, hrun, hshelved⟩ := hloop.ends
  have hcleanup : cleanupImageWatch envs w =
      (.returned (), { w₁ with fm :=
        { w₁.fm with pendingImagesByWatchDesc := ∅ } }) := by
    have hbody : cleanupImageWatch envs = (do
        let w ← Act.get
        Act.forEach w.fm.pendingImagesByWatchDesc.toList (shelveImage envs)
        Act.modify fun w =>
          { w with fm := { w.fm with pendingImagesByWatchDesc := ∅ } }) :=
      rfl
    rw [hbody, Act.bind_apply_returned (Act.get_apply w),
      Act.bind_apply_returned hrun, Act.modify_apply]
  refine ⟨w₁, hshelved, ?_⟩
  rw [acknowledgeImages, Act.bind_apply_returned hcleanup]
  rfl

theorem complete_collecting {s : Drawing} {envs : ℤ → Env}
    (h : Collecting s) (hvalid : s.Valid (.complete envs))
    (hundisturbed : s.Undisturbed (.complete envs)) :
    Collecting (s.step (.complete envs)) ∧ s.OwnImages (.complete envs) := by
  obtain ⟨hrunning, hdelivered, hids, hfresh⟩ := hvalid
  obtain ⟨hempty, hearlier⟩ := h.unstored hrunning
  obtain ⟨w₁, hshelved, hrun⟩ := acknowledgeImages_spec h.collects hdelivered
    hundisturbed hids hfresh
  let entries := s.world.fm.pendingImagesByWatchDesc.toList
  have hpending := h.collects.pendingNames_perm hdelivered
  have hworld : (s.step (.complete envs)).world =
      { w₁ with fm := { w₁.fm with pendingImagesByWatchDesc := ∅ } } :=
    congrArg Prod.snd hrun
  refine ⟨⟨?_, fun hrunning => by cases hrunning⟩,
    _, _, congrArg Prod.fst hrun, ?_⟩
  · rw [hworld]
    obtain ⟨hidle, hwatched, hquiet⟩ := hshelved.calm
    obtain ⟨rootWd, hroot⟩ := h.collects.root
    have hnone : createdNames w₁.inotify.unread = [] := by
      refine createdNames_of_delivered fun event hevent => ?_
      have hq := hquiet event hevent
      simp only [Quiet, List.mem_cons, not_or] at hq
      exact hq.1
    refine ⟨hidle, ⟨rootWd, hshelved.rootDir.trans hroot⟩, hwatched,
      fun event hevent => Or.inl (hquiet event hevent), ?_, List.nodup_nil,
      fun image himage => by cases himage⟩
    have hnoPending : ∀ k : ℤ, (∅ : Map ℤ PendingImage)[k]? = none := by
      simp
    have hnames : pendingNames { w₁ with fm :=
        { w₁.fm with pendingImagesByWatchDesc := ∅ } } = [] := by
      rw [pendingNames, Map.toList_eq_nil hnoPending]
      rfl
    rw [hnames]
    exact List.Perm.of_eq (by simp [hnone, step])
  · have hreport : w₁.fm.imageIds =
        entries.map fun entry => (envs entry.1).newId := by
      rw [hshelved.imageIds, hempty, List.nil_append]
    rw [hworld, hreport]
    refine ⟨hids, fun id hid => ?_, entries.map fun entry =>
      (entry.2.fileName,
        (s.world.disk[entry.2.fileName]?).getD []), ?_, ?_⟩
    · obtain ⟨entry, -, rfl⟩ := List.mem_map.mp hid
      rw [← hearlier]
      exact (hfresh entry.1).2
    · -- a drawn image is determined by its file
      let image : String → String × Bytes := fun name =>
        (name, (s.world.disk[name]?).getD [])
      have hdrawn : (s.drawn.map Prod.fst).map image = s.drawn := by
        rw [List.map_map]
        refine (List.map_congr_left fun p hp => ?_).trans (List.map_id _)
        have honDisk := (h.collects.images p hp).onDisk
        simp [image, honDisk]
      have hperm := hpending.map image
      rw [hdrawn, pendingNames, List.map_map] at hperm
      exact hperm
    · rw [List.forall₂_map_left_iff, List.forall₂_map_right_iff,
        List.forall₂_same]
      intro entry hentry
      have hmem : entry.2.fileName ∈ s.drawn.map Prod.fst :=
        hpending.mem_iff.mp (List.mem_map_of_mem hentry)
      obtain ⟨p, hp, hname⟩ := List.mem_map.mp hmem
      have honDisk := (h.collects.images p hp).onDisk
      rw [hname] at honDisk
      have hrow := hshelved.rows entry hentry
      rw [honDisk] at hrow ⊢
      exact hrow

/-- Every kind of step keeps the images on their way, and an acknowledgement
reports its own. -/
theorem Collecting.step {s : Drawing} {op : DrawOp} (h : Collecting s)
    (hvalid : s.Valid op) (hundisturbed : s.Undisturbed op) :
    Collecting (s.step op) ∧ s.OwnImages op := by
  cases op with
  | exec => exact ⟨exec_collecting h hvalid hundisturbed, trivial⟩
  | draw name data => exact ⟨draw_collecting h hvalid hundisturbed, trivial⟩
  | deliver envs => exact ⟨deliver_collecting h hvalid hundisturbed, trivial⟩
  | ignoreOff => exact ⟨ignoreOff_collecting h, trivial⟩
  | complete envs => exact complete_collecting h hvalid hundisturbed

/-- In every run in which commands begin with nothing pending and no new
image falls into the open window, every acknowledgement reports the images of
its own command. -/
theorem ownImages_of_undisturbed {s : Drawing} {ops : List DrawOp}
    (h : Collecting s) (hvalid : Along Drawing.step Valid s ops)
    (hundisturbed : Along Drawing.step Undisturbed s ops) :
    Along Drawing.step OwnImages s ops :=
  along_of_invariant (I := Collecting)
    (fun _ _ h hg => (h.step hg.1 hg.2).1)
    (fun _ _ h hg => (h.step hg.1 hg.2).2) h
    (along_and.mpr ⟨hvalid, hundisturbed⟩)

/-! ## One image -/

/-- A session that has run nothing yet. -/
def noImages : Drawing where
  world := World.initial "wd" 1 1 ⟨∅, ∅, ∅, ∅⟩
  drawn := []
  earlier := ∅
  running := false

theorem noImages_collecting : Collecting noImages := by
  refine ⟨⟨rfl, ⟨1, rfl⟩, fun wd watch hwatch => ?_, fun event hevent => ?_,
    List.Perm.of_eq rfl, List.nodup_nil, fun image himage => ?_⟩,
    fun hrunning => ?_⟩
  · simp [noImages, World.initial] at hwatch
  · cases hevent
  · cases himage
  · cases hrunning

/-- The first command draws an image and ends in an error, the second one
draws nothing and succeeds. -/
def errorThenSuccess : List DrawOp :=
  [.exec, .draw "rc2img1.png" [1], .deliver [Env.succeeding 5 1], .ignoreOff,
    .exec, .complete fun _ => Env.succeeding 5 1]

/-- The event of the first image is delivered with a new descriptor. -/
theorem deliver_first_valid (s : Drawing)
    (hnew : s.world.fm.pendingImagesByWatchDesc[(5 : ℤ)]? = none) :
    s.Valid (.deliver [Env.succeeding 5 1]) := by
  refine ⟨by simp, fun env henv => ?_⟩
  obtain rfl := List.mem_singleton.mp henv
  exact ⟨by decide, hnew⟩

/-- The acknowledgement of the second command reports the image of the
first. -/
theorem ownImages_fails_after_error :
    Collecting noImages ∧ Along Drawing.step Valid noImages errorThenSuccess ∧
      ¬ Along Drawing.step OwnImages noImages errorThenSuccess := by
  refine ⟨noImages_collecting, ⟨List.forall_mem_nil _,
    ⟨rfl, by decide, by decide⟩, deliver_first_valid _ (by decide), trivial,
    List.forall_mem_nil _,
    ⟨rfl, by decide, by decide, fun _ => ⟨Int.one_pos, rfl⟩⟩, trivial⟩, ?_⟩
  rintro ⟨-, -, -, -, -, hown, -⟩
  obtain ⟨ids, batch, hreport, -, -, images, hperm, hrows⟩ := hown
  have hone : (ids, batch) = ([1], 1) :=
    Outcome.returned.inj (hreport.symm.trans (by decide +kernel))
  have hnone : images = [] := List.perm_nil.mp hperm
  cases hone
  rw [hnone] at hrows
  cases hrows

/-- One command, whose image is delivered while the window is closed. -/
theorem ownImages_one_image :
    Along Drawing.step OwnImages noImages
      [.exec, .draw "rc2img1.png" [1], .deliver [Env.succeeding 5 1],
        .complete fun _ => Env.succeeding 5 1] := by
  refine ownImages_of_undisturbed noImages_collecting
    ⟨List.forall_mem_nil _, ⟨rfl, by decide, by decide⟩,
      deliver_first_valid _ (by decide),
      ⟨rfl, by decide, by decide, fun _ => ⟨Int.one_pos, rfl⟩⟩, trivial⟩
    ⟨fun wd => ?_, ⟨?_, ?_⟩, ⟨fun hopen => ?_, fun env henv => ?_⟩,
      fun _ => Env.succeeding_succeeds 5 1, trivial⟩
  · simp [noImages, World.initial, FileManager.initial]
  · exact Nat.one_pos
  · decide
  · cases hopen
  · obtain rfl := List.mem_singleton.mp henv
    rfl

end Drawing

end Rc2Compute.Files
