import Rc2Compute.Files.Replication
import Rc2Compute.Files.Succeeding
import Rc2Compute.Support.Portions

/-!
# Local writes and the database

An R command rewrites files of the working directory, other sessions commit
new contents, and the session handles inotify events and notifications in
whatever portions they reach it.  Each side is meant to end up with the same
bytes.  A write is lost when its events are read while the ignore window is
open and nothing else will bring the two sides together.
-/

namespace Rc2Compute.Files

open Transition

/-- The session and the notifications that wait for it. -/
structure Mirroring where
  world : World
  queue : List String

/-- An R command rewrites a file, another session commits new contents, a
notification without a commit by others is queued, the loop delivers some
events or some notifications, each with the answers its handler gets, or the
ignore-off timer fires. -/
inductive MirrorOp where
  | rewrite (name : String) (data : Bytes)
  | remoteUpdate (id version lastmod : ℤ) (data : Bytes) (message : String)
  | notify (message : String)
  | deliverEvents (envs : List Env)
  | deliverNotifications (env : Env) (envs : List Env)
  | ignoreOff

namespace Mirroring

def step (s : Mirroring) : MirrorOp → Mirroring
  | .rewrite name data =>
      { s with world := s.world.writeFile .other name data }
  | .remoteUpdate id version lastmod data message =>
      { world := Replication.commitWorld s.world
          (.change id version lastmod data)
        queue := s.queue ++ [message] }
  | .notify message => { s with queue := s.queue ++ [message] }
  | .deliverEvents envs =>
      { s with world := (handleInotifyEvent
          (envs.zip s.world.inotify.unread)
          (s.world.readEvents envs.length)).2 }
  | .deliverNotifications env envs =>
      { world := (handleDBNotifications env (envs.zip s.queue) s.world).2
        queue := s.queue.drop envs.length }
  | .ignoreOff =>
      if 0 < s.world.fm.ignoreOffTimers then
        { s with world := (handleIgnoreFSNotesOff s.world).2 }
      else
        s

/-- The file is cached as the object `r`. -/
def Cached (w : World) (id : ℤ) (r : ℕ) : Prop :=
  w.fm.filesById[id]? = some (some r)

instance (w : World) (id : ℤ) (r : ℕ) : Decidable (Cached w id r) :=
  inferInstanceAs (Decidable (_ = _))

/-- The end of a write to the file. -/
def EndsWrite (w : World) (id : ℤ) (event : InotifyEvent) : Prop :=
  event.mask = IN_CLOSE_WRITE ∧
    ∃ r, Cached w id r ∧ (w.fm.objects r).watchDescriptor = event.wd

/-- Among these events is the end of a write to the file. -/
def Written (w : World) (id : ℤ) (events : List InotifyEvent) : Prop :=
  ∃ event ∈ events, EndsWrite w id event

/-- A message about a changed file waits. -/
def Announced (s : Mirroring) (id : ℤ) : Prop :=
  ∃ message ∈ s.queue,
    parseNotification s.world.fm.wspaceId message = some ('u', id)

/-- The bytes on disk are the bytes in the database. -/
def Agrees (w : World) (id : ℤ) : Prop :=
  ∀ r, Cached w id r →
    w.disk[(w.fm.objects r).path]? = w.db.committed.rcfiledata[id]?

/-- No event, notification or timer is pending. -/
def Quiescent (s : Mirroring) : Prop :=
  s.world.inotify.unread = [] ∧ s.queue = [] ∧
    s.world.fm.ignoreOffTimers = 0

/-- Every cached file has the same bytes on both sides. -/
def Synced (s : Mirroring) : Prop :=
  ∀ id, Agrees s.world id

/-- The commands rewrite cached files in place, commits fit the columns and
are announced, and the session's calls succeed. -/
def Valid (s : Mirroring) : MirrorOp → Prop
  | .rewrite name _ =>
      ∃ id r, Cached s.world id r ∧ (s.world.fm.objects r).path = name
  | .remoteUpdate id version lastmod data message =>
      fitsInt4 version = true ∧ fitsInt4 lastmod = true ∧
        data.length < 2 ^ 31 ∧
        parseNotification s.world.fm.wspaceId message = some ('u', id)
  | .notify message =>
      ∃ id, parseNotification s.world.fm.wspaceId message = some ('u', id)
  | .deliverEvents envs => ∀ env ∈ envs, env.Works
  | .deliverNotifications env envs =>
      env.Works ∧ ∀ env ∈ envs, env.Works
  | .ignoreOff => True

/-- No event is read in the open window that a file still needs, and no
length overflows an `int`. -/
def LossFree (s : Mirroring) : MirrorOp → Prop
  | .rewrite _ data => data.length < 2 ^ 31
  | .deliverEvents envs =>
      s.world.fm.ignoreFSNotifications = true →
        ∀ id, Written s.world id
            (s.world.inotify.unread.take envs.length) →
          Agrees s.world id ∨ s.Announced id ∨
            Written s.world id (s.world.inotify.unread.drop envs.length)
  | _ => True

/-! ## What stays the same -/

/-- The two maps, the objects up to versions and names, the watches and the
rest of the configuration are the same. -/
structure SameFiles (w w' : World) : Prop where
  byId : w'.fm.filesById = w.fm.filesById
  byWatch : w'.fm.filesByWatchDesc = w.fm.filesByWatchDesc
  images : w'.fm.pendingImagesByWatchDesc = w.fm.pendingImagesByWatchDesc
  deaf : w'.fm.ignoreDBNotifications = w.fm.ignoreDBNotifications
  wspaceId : w'.fm.wspaceId = w.fm.wspaceId
  id : ∀ r, (w'.fm.objects r).id = (w.fm.objects r).id
  path : ∀ r, (w'.fm.objects r).path = (w.fm.objects r).path
  watchDescriptor : ∀ r, (w'.fm.objects r).watchDescriptor =
    (w.fm.objects r).watchDescriptor
  watches : w'.inotify.watches = w.inotify.watches

namespace SameFiles

theorem refl (w : World) : SameFiles w w :=
  ⟨rfl, rfl, rfl, rfl, rfl, fun _ => rfl, fun _ => rfl, fun _ => rfl, rfl⟩

theorem trans {a b c : World} (hab : SameFiles a b) (hbc : SameFiles b c) :
    SameFiles a c where
  byId := hbc.byId.trans hab.byId
  byWatch := hbc.byWatch.trans hab.byWatch
  images := hbc.images.trans hab.images
  deaf := hbc.deaf.trans hab.deaf
  wspaceId := hbc.wspaceId.trans hab.wspaceId
  id r := (hbc.id r).trans (hab.id r)
  path r := (hbc.path r).trans (hab.path r)
  watchDescriptor r := (hbc.watchDescriptor r).trans (hab.watchDescriptor r)
  watches := hbc.watches.trans hab.watches

end SameFiles

/-- Changing the version and the name of an object. -/
theorem sameFiles_setObject (w : World) (r : ℕ) (version : ℤ)
    (name : String) :
    SameFiles w (w.setObject r
      { w.fm.objects r with version := version, name := name }) := by
  have hobj : ∀ k, (w.setObject r { w.fm.objects r with
      version := version, name := name }).fm.objects k =
        if k = r then { w.fm.objects r with version := version, name := name }
        else w.fm.objects k := by
    intro k
    by_cases hk : k = r
    · subst hk
      simp [World.setObject]
    · simp [World.setObject, hk]
  refine ⟨rfl, rfl, rfl, rfl, rfl, fun k => ?_, fun k => ?_, fun k => ?_,
    rfl⟩
  · rw [hobj]
    split
    next h => rw [h]
    next => rfl
  · rw [hobj]
    split
    next h => rw [h]
    next => rfl
  · rw [hobj]
    split
    next h => rw [h]
    next => rfl

theorem sameFiles_windowOpened (w : World) : SameFiles w (windowOpened w) := by
  rw [windowOpened_eq]
  split
  · exact SameFiles.refl w
  · exact ⟨rfl, rfl, rfl, rfl, rfl, fun _ => rfl, fun _ => rfl,
      fun _ => rfl, rfl⟩

theorem Cached.of_sameFiles {w w' : World} (hs : SameFiles w w') {id : ℤ}
    {r : ℕ} : Cached w' id r ↔ Cached w id r := by
  rw [Cached, hs.byId, Cached]

theorem EndsWrite.of_sameFiles {w w' : World} (hs : SameFiles w w') {id : ℤ}
    {event : InotifyEvent} :
    EndsWrite w' id event ↔ EndsWrite w id event := by
  simp only [EndsWrite, Cached.of_sameFiles hs, hs.watchDescriptor]

theorem Written.of_sameFiles {w w' : World} (hs : SameFiles w w') {id : ℤ}
    {events : List InotifyEvent} :
    Written w' id events ↔ Written w id events := by
  simp only [Written, EndsWrite.of_sameFiles hs]

/-- What agrees stays so when the file's bytes stay on both sides. -/
theorem Agrees.of_sameFiles {w w' : World} (hs : SameFiles w w') {id : ℤ}
    (h : Agrees w id)
    (hdisk : ∀ r, Cached w id r → w'.disk[(w.fm.objects r).path]? =
      w.disk[(w.fm.objects r).path]?)
    (hdata : w'.db.committed.rcfiledata[id]? =
      w.db.committed.rcfiledata[id]?) : Agrees w' id := by
  intro r hr
  have hr' := (Cached.of_sameFiles hs).mp hr
  rw [hs.path, hdisk r hr', hdata]
  exact h r hr'

/-! ## The files of a session that tracks them -/

/-- The cached files are watched under their own descriptors and nothing else
is watched; no two files share a path. -/
structure Laid (w : World) : Prop where
  images : w.fm.pendingImagesByWatchDesc = ∅
  listens : w.fm.ignoreDBNotifications = false
  file : ∀ id ptr, w.fm.filesById[id]? = some ptr →
    ∃ r, ptr = some r ∧ (w.fm.objects r).id = id ∧ 0 ≤ id
  byWatch : ∀ id r, Cached w id r →
    w.fm.filesByWatchDesc[(w.fm.objects r).watchDescriptor]? =
      some (some r)
  watched : ∀ id r, Cached w id r →
    w.inotify.watches[(w.fm.objects r).watchDescriptor]? =
      some ⟨(w.fm.objects r).path, fileMask⟩
  watch : ∀ wd watch, w.inotify.watches[wd]? = some watch →
    ∃ id r, Cached w id r ∧ (w.fm.objects r).watchDescriptor = wd
  path : ∀ id r id' r', Cached w id r → Cached w id' r' →
    (w.fm.objects r).path = (w.fm.objects r').path → id = id'

/-- A cached file is on disk. -/
def OnDisk (w : World) (r : ℕ) : Prop :=
  ∃ data, w.disk[(w.fm.objects r).path]? = some data ∧
    data.length < 2 ^ 31

/-- A cached file has its row, under its path. -/
def InTable (w : World) (id : ℤ) (r : ℕ) : Prop :=
  ∃ row, w.db.committed.fetch id = some row ∧
    row.name = (w.fm.objects r).path ∧ row.fits = true ∧
    row.bindata.length < 2 ^ 31

/-- An event on a cached file that does not remove it. -/
def Known (w : World) (event : InotifyEvent) : Prop :=
  event.mask ∈ [IN_OPEN, IN_MODIFY, IN_CLOSE_WRITE] ∧
    ∃ id r, Cached w id r ∧ (w.fm.objects r).watchDescriptor = event.wd

/-- The invariant of the world: what only contents and versions move in. -/
structure InOrder (w : World) : Prop where
  laid : Laid w
  idle : w.db.transaction = none
  onDisk : ∀ id r, Cached w id r → OnDisk w r
  inTable : ∀ id r, Cached w id r → InTable w id r
  events : ∀ event ∈ w.inotify.unread, Known w event

/-- The invariant of runs: a file whose two sides differ has an event or a
message on its way. -/
structure Tracking (s : Mirroring) : Prop where
  inOrder : InOrder s.world
  messages : ∀ message ∈ s.queue,
    ∃ id, parseNotification s.world.fm.wspaceId message = some ('u', id)
  pending : ∀ id, Agrees s.world id ∨ s.Announced id ∨
    Written s.world id s.world.inotify.unread

theorem Laid.of_sameFiles {w w' : World} (h : Laid w)
    (hs : SameFiles w w') : Laid w' := by
  refine ⟨by rw [hs.images, h.images], by rw [hs.deaf, h.listens], ?_, ?_,
    ?_, ?_, ?_⟩
  · intro id ptr hptr
    rw [hs.byId] at hptr
    obtain ⟨r, rfl, hid, hpos⟩ := h.file id ptr hptr
    exact ⟨r, rfl, by rw [hs.id, hid], hpos⟩
  · intro id r hr
    rw [hs.byWatch, hs.watchDescriptor]
    exact h.byWatch id r ((Cached.of_sameFiles hs).mp hr)
  · intro id r hr
    rw [hs.watches, hs.watchDescriptor, hs.path]
    exact h.watched id r ((Cached.of_sameFiles hs).mp hr)
  · intro wd watch hwatch
    rw [hs.watches] at hwatch
    obtain ⟨id, r, hr, hwd⟩ := h.watch wd watch hwatch
    exact ⟨id, r, (Cached.of_sameFiles hs).mpr hr,
      by rw [hs.watchDescriptor, hwd]⟩
  · intro id r id' r' hr hr' hpath
    rw [hs.path, hs.path] at hpath
    exact h.path id r id' r' ((Cached.of_sameFiles hs).mp hr)
      ((Cached.of_sameFiles hs).mp hr') hpath

theorem Known.of_sameFiles {w w' : World} (hs : SameFiles w w')
    {event : InotifyEvent} (h : Known w event) : Known w' event := by
  obtain ⟨hmask, id, r, hr, hwd⟩ := h
  exact ⟨hmask, id, r, (Cached.of_sameFiles hs).mpr hr,
    by rw [hs.watchDescriptor, hwd]⟩

/-- The invariant is kept when every file keeps some bytes on disk and a row,
and the events that are new are known. -/
theorem InOrder.of_sameFiles {w w' : World} (h : InOrder w)
    (hs : SameFiles w w') (hidle : w'.db.transaction = none)
    (hdisk : ∀ id r, Cached w id r → OnDisk w' r)
    (htable : ∀ id r, Cached w id r → InTable w' id r)
    (hevents : ∀ event ∈ w'.inotify.unread,
      event ∈ w.inotify.unread ∨ Known w event) : InOrder w' := by
  refine ⟨h.laid.of_sameFiles hs, hidle,
    fun id r hr => hdisk id r ((Cached.of_sameFiles hs).mp hr),
    fun id r hr => htable id r ((Cached.of_sameFiles hs).mp hr), ?_⟩
  intro event hevent
  rcases hevents event hevent with hold | hnew
  · exact (h.events event hold).of_sameFiles hs
  · exact hnew.of_sameFiles hs

theorem InOrder.path_inj {w : World} (h : InOrder w) {id id' : ℤ} {r r' : ℕ}
    (hr : Cached w id r) (hr' : Cached w id' r') (hne : id' ≠ id) :
    (w.fm.objects r).path ≠ (w.fm.objects r').path := by
  intro hpath
  exact hne (h.laid.path id r id' r' hr hr' hpath).symm

/-! ## Writing a cached file -/

theorem writeFile_sameFiles (w : World) (writer : Writer) (name : String)
    (data : Bytes) : SameFiles w (w.writeFile writer name data) :=
  ⟨rfl, rfl, rfl, rfl, rfl, fun _ => rfl, fun _ => rfl, fun _ => rfl, rfl⟩

/-- Writing a file that exists queues the events of its watches. -/
theorem writeFile_unread {w : World} {name : String}
    (h : w.disk[name]? ≠ none) (writer : Writer) (data : Bytes) :
    (w.writeFile writer name data).inotify.unread =
      w.inotify.unread ++ w.inotify.fileEvents writer name
        [IN_OPEN, IN_MODIFY, IN_CLOSE_WRITE] := by
  have hcontains : w.disk.contains name = true := by
    rw [Std.TreeMap.contains_eq_isSome_getElem?, Option.isSome_iff_ne_none]
    exact h
  simp [World.writeFile, hcontains]

section writeFile

variable {w : World} {id : ℤ} {r : ℕ} {writer : Writer} {data : Bytes}

theorem OnDisk.exists {w : World} {r : ℕ} (h : OnDisk w r) :
    w.disk[(w.fm.objects r).path]? ≠ none := by
  obtain ⟨data, hdata, -⟩ := h
  rw [hdata]
  exact Option.some_ne_none data

/-- A write to a cached file keeps the session in order. -/
theorem InOrder.writeFile (h : InOrder w) (hr : Cached w id r)
    (hsize : data.length < 2 ^ 31) :
    InOrder (w.writeFile writer (w.fm.objects r).path data) := by
  refine h.of_sameFiles (writeFile_sameFiles w writer _ data) h.idle ?_
    h.inTable ?_
  · intro id' r' hr'
    by_cases hpath : (w.fm.objects r).path = (w.fm.objects r').path
    · refine ⟨data, ?_, hsize⟩
      simp [World.writeFile, hpath]
    · obtain ⟨old, hold, hlt⟩ := h.onDisk id' r' hr'
      refine ⟨old, ?_, hlt⟩
      simpa [World.writeFile, Map.getElem?_insert, hpath] using hold
  · intro event hevent
    rw [writeFile_unread (h.onDisk id r hr).exists, List.mem_append] at hevent
    rcases hevent with hold | hnew
    · exact Or.inl hold
    · obtain ⟨watch, hwatch, hpath, hmask, -⟩ := mem_fileEvents.mp hnew
      exact Or.inr ⟨hmask, h.laid.watch _ _ hwatch⟩

/-- The write itself will be seen. -/
theorem InOrder.written_writeFile (h : InOrder w) (hr : Cached w id r) :
    Written w id (w.writeFile writer (w.fm.objects r).path
      data).inotify.unread := by
  refine ⟨⟨(w.fm.objects r).watchDescriptor, IN_CLOSE_WRITE, "", writer⟩, ?_,
    rfl, r, hr, rfl⟩
  rw [writeFile_unread (h.onDisk id r hr).exists, List.mem_append]
  have hmask : IN_CLOSE_WRITE &&& fileMask ≠ 0 := by decide
  refine Or.inr (mem_fileEvents.mpr ⟨_, h.laid.watched id r hr, rfl, ?_,
    hmask, rfl, rfl⟩)
  simp

/-- Other files are not touched. -/
theorem InOrder.agrees_writeFile (h : InOrder w) (hr : Cached w id r)
    {id' : ℤ} (hne : id' ≠ id) (hagrees : Agrees w id') :
    Agrees (w.writeFile writer (w.fm.objects r).path data) id' := by
  refine hagrees.of_sameFiles (writeFile_sameFiles w writer _ data) ?_ rfl
  intro r' hr'
  have hpath := h.path_inj hr hr' hne
  simp [World.writeFile, Map.getElem?_insert, hpath]

end writeFile

/-! ## Changing the stored contents -/

theorem fetch_change (wspaceId id version lastmod : ℤ) (data : Bytes) (t : Tables)
    (k : ℤ) :
    (Commit.execute wspaceId (.change id version lastmod data) t).fetch k =
      if k = id then (t.fetch k).map fun row =>
        { row with version := version, lastmod := lastmod, bindata := data }
      else t.fetch k := by
  rw [Commit.fetch_execute, Commit.apply]
  by_cases hk : k = id
  · subst hk
    simp
  · simp [hk]

section change

variable {w w' : World} {id version lastmod : ℤ} {data : Bytes}
  (hs : SameFiles w w')
  (hdb : w'.db.committed =
    Commit.execute w.fm.wspaceId (.change id version lastmod data)
      w.db.committed)

include hs hdb

theorem InOrder.inTable_change (h : InOrder w)
    (hversion : fitsInt4 version = true) (hdate : fitsInt4 lastmod = true)
    (hsize : data.length < 2 ^ 31) {k : ℤ} {r : ℕ} (hr : Cached w k r) :
    InTable w' k r := by
  obtain ⟨row, hrow, hname, hfits, hlt⟩ := h.inTable k r hr
  rw [InTable, hdb, fetch_change, hrow, hs.path]
  by_cases hk : k = id
  · refine ⟨{ row with version := version, lastmod := lastmod, bindata := data },
      ?_, hname, ?_, hsize⟩
    · rw [if_pos hk]
      rfl
    · simp only [FetchedFile.fits, Bool.and_eq_true] at hfits ⊢
      exact ⟨⟨hfits.1.1, hversion⟩, hdate⟩
  · exact ⟨row, if_neg hk, hname, hfits, hlt⟩

theorem Agrees.change {k : ℤ} (hne : k ≠ id) (hdisk : w'.disk = w.disk)
    (h : Agrees w k) : Agrees w' k := by
  refine h.of_sameFiles hs (fun r _ => by rw [hdisk]) ?_
  have hne' : id ≠ k := fun heq => hne heq.symm
  rw [hdb]
  simp [Commit.execute, Map.getElem?_modify, hne']

end change

/-- Another session's commit keeps the session in order. -/
theorem InOrder.commit {w : World} (h : InOrder w) {id version lastmod : ℤ}
    {data : Bytes} (hversion : fitsInt4 version = true)
    (hdate : fitsInt4 lastmod = true) (hsize : data.length < 2 ^ 31) :
    InOrder (Replication.commitWorld w (.change id version lastmod data)) := by
  have hs : SameFiles w
      (Replication.commitWorld w (.change id version lastmod data)) :=
    ⟨rfl, rfl, rfl, rfl, rfl, fun _ => rfl, fun _ => rfl, fun _ => rfl, rfl⟩
  exact h.of_sameFiles hs h.idle h.onDisk
    (fun k r hr => h.inTable_change hs rfl hversion hdate hsize hr)
    fun event hevent => Or.inl hevent

/-! ## Handling events -/

theorem fitsInt4_toInt32 (x : ℤ) : fitsInt4 (toInt32 x) = true := by
  have hlo := Int.le_bmod (x := x) (m := 2 ^ 32) (by decide)
  have hhi := Int.bmod_lt (x := x) (m := 2 ^ 32) (by decide)
  refine decide_eq_true ⟨?_, ?_⟩
  · rw [toInt32]
    omega
  · rw [toInt32]
    omega

theorem stored_sameFiles (w : World) (r : ℕ) (mtime : ℤ) (data : Bytes) :
    SameFiles w (w.stored r mtime data) := by
  obtain ⟨h1, h2, h3, h4, h5, h6, h7, h8, h9⟩ := sameFiles_setObject w r
    (toInt32 ((w.fm.objects r).version + 1)) (w.fm.objects r).name
  exact ⟨h1, h2, h3, h4, h5, h6, h7, h8, h9⟩

theorem stored_disk (w : World) (r : ℕ) (mtime : ℤ) (data : Bytes) :
    (w.stored r mtime data).disk = w.disk := rfl

theorem stored_inotify (w : World) (r : ℕ) (mtime : ℤ) (data : Bytes) :
    (w.stored r mtime data).inotify = w.inotify := rfl

/-- Storing a file brings its two sides together and leaves the other files
alone. -/
theorem InOrder.stored {w : World} {id mtime : ℤ} {r : ℕ} {data : Bytes}
    (h : InOrder w) (hr : Cached w id r) (hdate : fitsInt4 mtime = true)
    (hdata : w.disk[(w.fm.objects r).path]? = some data)
    (hsize : data.length < 2 ^ 31) :
    InOrder (w.stored r mtime data) ∧
      ∀ k, Agrees w k ∨ k = id → Agrees (w.stored r mtime data) k := by
  obtain ⟨r₀, hr₀, hid, -⟩ := h.laid.file id _ hr
  obtain rfl : r = r₀ := Option.some.inj hr₀
  have hs := stored_sameFiles w r mtime data
  have hdb : (w.stored r mtime data).db.committed =
      Commit.execute w.fm.wspaceId (.change id
        (toInt32 ((w.fm.objects r).version + 1)) mtime data)
        w.db.committed := by
    rw [← hid]
    rfl
  have hdisk : ∀ k r', Cached w k r' → OnDisk (w.stored r mtime data) r' := by
    intro k r' hr'
    rw [OnDisk, stored_disk, hs.path]
    exact h.onDisk k r' hr'
  refine ⟨h.of_sameFiles hs rfl hdisk (fun k r' hr' =>
    h.inTable_change hs hdb (fitsInt4_toInt32 _) hdate hsize hr') fun _ he =>
    Or.inl he, fun k hk => ?_⟩
  by_cases hne : k = id
  · subst hne
    intro r' hr'
    obtain rfl : r = r' := Option.some.inj (Option.some.inj
      (hr.symm.trans ((Cached.of_sameFiles hs).mp hr')))
    obtain ⟨row, hrow, -⟩ := h.inTable k r hr
    rw [hs.path, hdb, stored_disk]
    have hold : ∃ old, w.db.committed.rcfiledata[k]? = some old := by
      simp only [Tables.fetch, Option.bind_eq_some_iff,
        Option.map_eq_some_iff] at hrow
      obtain ⟨_, -, old, hold, -⟩ := hrow
      exact ⟨old, hold⟩
    obtain ⟨old, hold⟩ := hold
    simpa [Commit.execute, Map.getElem?_modify, hold] using hdata
  · rcases hk with hk | hk
    · exact hk.change hs hdb hne rfl
    · exact absurd hk hne

/-- What handling one event guarantees: the files stay in order, nothing is
queued, what agrees goes on to, and the end of a write brings the two sides
of its file together. -/
def Handled (event : InotifyEvent) (w w' : World) : Prop :=
  (InOrder w' ∧ SameFiles w w' ∧ w'.inotify = w.inotify) ∧
    ∀ id, Agrees w id ∨ EndsWrite w id event → Agrees w' id

theorem handleCloseWrite_handled {env : Env} {w : World}
    {event : InotifyEvent} (henv : env.Works) (h : InOrder w)
    (hevent : Known w event) :
    Act.wp (handleCloseWrite env event) (fun _ => Handled event w)
      (fun _ _ => False) w := by
  obtain ⟨-, id, r, hr, hwd⟩ := hevent
  obtain ⟨data, hdata, hsize⟩ := h.onDisk id r hr
  have himage : w.fm.pendingImagesByWatchDesc[event.wd]? = none := by
    rw [h.laid.images]
    simp
  have hindex : filesByWatchDescIndex event.wd w =
      (.returned (some r), w) :=
    filesByWatchDescIndex_of_some (hwd ▸ h.laid.byWatch id r hr)
  obtain ⟨hinOrder, hagrees⟩ := h.stored hr henv.dated hdata hsize
  simp only [handleCloseWrite, Act.wp_bind, Act.wp_get, himage]
  refine Act.wp_of_apply hindex ?_
  refine Act.wp_of_apply (load_some r w) ?_
  refine Act.wp_of_apply (updateDBFile_succeeds henv.toSucceeds hdata hsize)
    ⟨⟨hinOrder, stored_sameFiles w r env.mtime data,
        stored_inotify w r env.mtime data⟩,
      fun k hk => ?_⟩
  refine hagrees k (hk.imp_right ?_)
  rintro ⟨-, r', hr', hwd'⟩
  have hboth := (h.laid.byWatch id r hr).symm.trans
    ((hwd.trans hwd'.symm) ▸ h.laid.byWatch k r' hr')
  obtain rfl : r = r' := Option.some.inj (Option.some.inj hboth)
  obtain ⟨_, hrk, hidk, -⟩ := h.laid.file k _ hr'
  obtain ⟨_, hri, hidi, -⟩ := h.laid.file id _ hr
  cases hrk
  cases hri
  exact hidk.symm.trans hidi

theorem handleLogged_handled {w : World} {event : InotifyEvent}
    (h : InOrder w) (hevent : Known w event)
    (hmask : event.mask ≠ IN_CLOSE_WRITE) :
    Act.wp (handleLogged event) (fun _ => Handled event w)
      (fun _ _ => False) w := by
  obtain ⟨-, id, r, hr, hwd⟩ := hevent
  have hindex : filesByWatchDescIndex event.wd w =
      (.returned (some r), w) :=
    filesByWatchDescIndex_of_some (hwd ▸ h.laid.byWatch id r hr)
  have hrun : handleLogged event w = (.returned (), w) := by
    simp only [handleLogged, Act.bind_apply, hindex, load_some,
      Act.pure_apply]
  refine Act.wp_of_apply hrun ⟨⟨h, SameFiles.refl w, rfl⟩, fun k hk => ?_⟩
  rcases hk with hk | ⟨hclose, -⟩
  · exact hk
  · exact absurd hclose hmask

theorem handleEvent_handled {env : Env} {w : World} {event : InotifyEvent}
    (henv : env.Works) (h : InOrder w) (hevent : Known w event) :
    Act.wp (handleEvent env event) (fun _ => Handled event w)
      (fun _ _ => False) w := by
  have hmask := hevent.1
  simp only [List.mem_cons, List.not_mem_nil, or_false] at hmask
  rw [handleEvent, Act.wp_tryCatch]
  rcases hmask with hopen | hmodify | hclose
  · have htype : event.evtype = IN_OPEN := by
      rw [InotifyEvent.evtype, hopen]
      decide
    rw [htype, if_neg (by decide), if_neg (by decide), if_neg (by decide),
      if_pos (by decide)]
    exact (handleLogged_handled h hevent (by rw [hopen]; decide)).mono
      (fun _ _ h => h) fun _ _ h => h.elim
  · have htype : event.evtype = IN_MODIFY := by
      rw [InotifyEvent.evtype, hmodify]
      decide
    rw [htype, if_neg (by decide), if_neg (by decide), if_neg (by decide),
      if_pos (by decide)]
    exact (handleLogged_handled h hevent (by rw [hmodify]; decide)).mono
      (fun _ _ h => h) fun _ _ h => h.elim
  · have htype : event.evtype = IN_CLOSE_WRITE := by
      rw [InotifyEvent.evtype, hclose]
      decide
    rw [htype, if_neg (by decide), if_pos rfl]
    exact (handleCloseWrite_handled henv h hevent).mono (fun _ _ h => h)
      fun _ _ h => h.elim

/-- Opening the window touches no file. -/
theorem InOrder.windowOpened {w : World} (h : InOrder w) :
    InOrder (windowOpened w) := by
  have hs := sameFiles_windowOpened w
  refine h.of_sameFiles hs ?_ (fun id r hr => ?_) (fun id r hr => ?_)
    fun event hevent => Or.inl ?_
  · rw [windowOpened_db, h.idle]
  · rw [OnDisk, windowOpened_disk, hs.path]
    exact h.onDisk id r hr
  · rw [InTable, windowOpened_db, hs.path]
    exact h.inTable id r hr
  · rwa [windowOpened_inotify] at hevent

theorem Agrees.windowOpened {w : World} {id : ℤ} (h : Agrees w id) :
    Agrees (windowOpened w) id :=
  h.of_sameFiles (sameFiles_windowOpened w)
    (fun _ _ => by rw [windowOpened_disk]) (by rw [windowOpened_db])

/-- A batch brings every file it ends a write to together. -/
theorem forEach_handleEvent {w : World} {batch : List (Env × InotifyEvent)}
    (h : InOrder w)
    (hbatch : ∀ entry ∈ batch, entry.1.Works ∧ Known w entry.2) :
    Act.wp (Act.forEach batch fun entry => handleEvent entry.1 entry.2)
      (fun _ w' => (InOrder w' ∧ SameFiles w w' ∧ w'.inotify = w.inotify) ∧
        ∀ id, (Agrees w id ∨ ∃ entry ∈ batch, EndsWrite w id entry.2) →
          Agrees w' id)
      (fun _ _ => False) w := by
  refine Act.wp_forEach_covers
    (I := fun w' => InOrder w' ∧ SameFiles w w' ∧ w'.inotify = w.inotify)
    (G := fun id w' => Agrees w' id)
    (E := fun id (entry : Env × InotifyEvent) => EndsWrite w id entry.2)
    ?_ ⟨h, SameFiles.refl w, rfl⟩
  rintro entry hentry w₁ ⟨h₁, hs₁, hk₁⟩
  obtain ⟨henv, hknown⟩ := hbatch entry hentry
  refine (handleEvent_handled henv h₁ (hknown.of_sameFiles hs₁)).mono ?_
    fun _ _ h => h
  rintro _ w₂ ⟨⟨h₂, hs₂, hk₂⟩, hagrees⟩
  refine ⟨⟨h₂, hs₁.trans hs₂, hk₂.trans hk₁⟩, fun id hid => hagrees id ?_⟩
  exact hid.imp_right (EndsWrite.of_sameFiles hs₁).mpr

/-- A batch read while the window is closed is handled. -/
theorem handleInotifyEvent_handled {w : World}
    {batch : List (Env × InotifyEvent)} (h : InOrder w)
    (hbatch : ∀ entry ∈ batch, entry.1.Works ∧ Known w entry.2)
    (hclosed : w.fm.ignoreFSNotifications = false) :
    Act.wp (handleInotifyEvent batch)
      (fun _ w' => (InOrder w' ∧ SameFiles w w' ∧ w'.inotify = w.inotify) ∧
        ∀ id, (Agrees w id ∨ ∃ entry ∈ batch, EndsWrite w id entry.2) →
          Agrees w' id)
      (fun _ _ => False) w := by
  have hs := sameFiles_windowOpened w
  simp only [handleInotifyEvent, Act.wp_bind, Act.wp_get, hclosed,
    Bool.false_eq_true, if_false]
  refine Act.wp_of_apply (ignoreFSNotifications_apply w) ?_
  have hloop := forEach_handleEvent h.windowOpened
    fun entry hentry => ⟨(hbatch entry hentry).1,
      (hbatch entry hentry).2.of_sameFiles hs⟩
  refine hloop.mono ?_ fun _ _ h => h
  rintro _ w' ⟨⟨h', hs', hk'⟩, hagrees⟩
  rw [windowOpened_inotify] at hk'
  refine ⟨⟨h', hs.trans hs', hk'⟩, fun id hid => hagrees id ?_⟩
  rcases hid with hagree | ⟨entry, hentry, hends⟩
  · exact Or.inl hagree.windowOpened
  · exact Or.inr ⟨entry, hentry, (EndsWrite.of_sameFiles hs).mpr hends⟩

/-! ## Handling notifications -/

theorem refreshed_sameFiles (w : World) (r : ℕ) (row : FetchedFile) :
    SameFiles w (w.refreshed r row) :=
  (sameFiles_setObject w r (toUInt32 row.version) row.name).trans
    (writeFile_sameFiles _ _ _ _)

/-- What handling a message about the changed file `id` guarantees: the files
stay in order, no event is taken away, what agrees goes on to, and the two
sides of the file come together. -/
def Notified (id : ℤ) (w w' : World) : Prop :=
  (InOrder w' ∧ SameFiles w w' ∧
    ∀ event ∈ w.inotify.unread, event ∈ w'.inotify.unread) ∧
    ∀ k, Agrees w k ∨ k = id → Agrees w' k

theorem InOrder.refreshed {w : World} {id : ℤ} {r : ℕ} {row : FetchedFile}
    (h : InOrder w) (hr : Cached w id r)
    (hrow : w.db.committed.fetch id = some row)
    (hname : row.name = (w.fm.objects r).path)
    (hsize : row.bindata.length < 2 ^ 31) :
    Notified id w (w.refreshed r row) := by
  let w₁ := w.setObject r { w.fm.objects r with
    version := toUInt32 row.version, name := row.name }
  have hs₁ : SameFiles w w₁ := sameFiles_setObject w r _ _
  have hr₁ : Cached w₁ id r := hr
  have hpath : (w₁.fm.objects r).path = row.name := by
    rw [hs₁.path, hname]
  have hw₁ : InOrder w₁ := by
    refine h.of_sameFiles hs₁ h.idle (fun k r' hr' => ?_)
      (fun k r' hr' => ?_) fun event hevent => Or.inl hevent
    · rw [OnDisk, hs₁.path]
      exact h.onDisk k r' hr'
    · rw [InTable, hs₁.path]
      exact h.inTable k r' hr'
  have hfinal : w.refreshed r row =
      w₁.writeFile .loadFiles (w₁.fm.objects r).path row.bindata := by
    rw [hpath]
    rfl
  have hs : SameFiles w (w.refreshed r row) := refreshed_sameFiles w r row
  refine ⟨⟨hfinal ▸ hw₁.writeFile hr₁ hsize, hs, fun event hevent => ?_⟩,
    fun k hk => ?_⟩
  · rw [hfinal, writeFile_unread (hw₁.onDisk id r hr₁).exists]
    exact List.mem_append_left _ hevent
  · by_cases hne : k = id
    · subst hne
      intro r' hr'
      obtain rfl : r = r' := Option.some.inj (Option.some.inj
        (hr.symm.trans ((Cached.of_sameFiles hs).mp hr')))
      have hdata : w.db.committed.rcfiledata[k]? = some row.bindata := by
        simp only [Tables.fetch, Option.bind_eq_some_iff,
          Option.map_eq_some_iff] at hrow
        obtain ⟨_, -, data, hdata, rfl⟩ := hrow
        exact hdata
      calc (w.refreshed r row).disk[((w.refreshed r row).fm.objects r).path]?
          = (w.disk.insert row.name row.bindata)[row.name]? := by
            rw [hs.path, ← hname]
            rfl
        _ = some row.bindata := Map.getElem?_insert_self _ _ _
        _ = w.db.committed.rcfiledata[k]? := hdata.symm
    · rw [hfinal]
      refine hw₁.agrees_writeFile hr₁ hne ?_
      refine (hk.resolve_right hne).of_sameFiles hs₁ (fun _ _ => rfl) rfl

theorem processUpdate_notified {env : Env} {w : World} {id : ℤ}
    (henv : env.Works) (h : InOrder w) :
    Act.wp (processUpdate env id) (fun _ => Notified id w)
      (fun _ _ => False) w := by
  cases hid : w.fm.filesById[id]? with
  | none =>
      have hcontains : ¬ w.fm.filesById.contains id = true := by
        rw [Std.TreeMap.contains_eq_isSome_getElem?, hid]
        decide
      have hrun : processUpdate env id w = (.returned (), w) := by
        rw [processUpdate, Act.bind_apply_returned (Act.get_apply w),
          if_neg hcontains]
        rfl
      refine Act.wp_of_apply hrun ⟨⟨h, SameFiles.refl w, fun _ he => he⟩,
        fun k hk => ?_⟩
      rcases hk with hk | rfl
      · exact hk
      · intro r hr
        cases hid.symm.trans hr
  | some ptr =>
      obtain ⟨r, rfl, -, hpos⟩ := h.laid.file id ptr hid
      have hr : Cached w id r := hid
      obtain ⟨row, hrow, hname, hfits, hsize⟩ := h.inTable id r hr
      have hs := sameFiles_windowOpened w
      obtain ⟨⟨hinOrder, hsame, hkept⟩, hagrees⟩ :=
        h.windowOpened.refreshed ((Cached.of_sameFiles hs).mpr hr)
          (by rw [windowOpened_db, hrow]) (by rw [hs.path, hname]) hsize
      refine Act.wp_of_apply
        (processUpdate_of_cached henv.toSucceeds hid hrow hfits hpos)
        ⟨⟨hinOrder, hs.trans hsame, fun event hevent => ?_⟩, fun k hk => ?_⟩
      · rw [← windowOpened_inotify] at hevent
        exact hkept event hevent
      · exact hagrees k (hk.imp_left Agrees.windowOpened)

/-- A batch of messages brings every file it names together. -/
theorem forEach_processDBNotification {w : World}
    {batch : List (Env × String)} (h : InOrder w)
    (hbatch : ∀ entry ∈ batch, entry.1.Works ∧
      ∃ id, parseNotification w.fm.wspaceId entry.2 = some ('u', id)) :
    Act.wp (Act.forEach batch fun entry =>
        processDBNotification entry.1 entry.2)
      (fun _ w' => (InOrder w' ∧ SameFiles w w' ∧
          ∀ event ∈ w.inotify.unread, event ∈ w'.inotify.unread) ∧
        ∀ id, (Agrees w id ∨ ∃ entry ∈ batch,
            parseNotification w.fm.wspaceId entry.2 = some ('u', id)) →
          Agrees w' id)
      (fun _ _ => False) w := by
  refine Act.wp_forEach_covers
    (I := fun w' => InOrder w' ∧ SameFiles w w' ∧
      ∀ event ∈ w.inotify.unread, event ∈ w'.inotify.unread)
    (G := fun id w' => Agrees w' id)
    (E := fun id (entry : Env × String) =>
      parseNotification w.fm.wspaceId entry.2 = some ('u', id))
    ?_ ⟨h, SameFiles.refl w, fun _ hevent => hevent⟩
  rintro ⟨env, message⟩ hentry w₁ ⟨h₁, hs₁, hkept₁⟩
  obtain ⟨henv, id, hparse⟩ := hbatch _ hentry
  rw [processDBNotification, Act.wp_bind, Act.wp_get]
  beta_reduce
  rw [hs₁.wspaceId, hparse]
  simp only [Act.wp_tryCatch]
  rw [if_neg (by decide), if_neg (by decide)]
  refine (processUpdate_notified henv h₁).mono ?_ fun _ _ h => h.elim
  rintro _ w₂ ⟨⟨h₂, hs₂, hkept₂⟩, hagrees⟩
  refine ⟨⟨h₂, hs₁.trans hs₂, fun event hevent =>
    hkept₂ event (hkept₁ event hevent)⟩, fun k hk => hagrees k ?_⟩
  refine hk.imp_right fun hsame => ?_
  simp only [Option.some.injEq, Prod.mk.injEq] at hsame
  exact hsame.2.symm

theorem handleDBNotifications_notified {env : Env} {w : World}
    {batch : List (Env × String)} (henv : env.Works) (h : InOrder w)
    (hbatch : ∀ entry ∈ batch, entry.1.Works ∧
      ∃ id, parseNotification w.fm.wspaceId entry.2 = some ('u', id)) :
    Act.wp (handleDBNotifications env batch)
      (fun _ w' => (InOrder w' ∧ SameFiles w w' ∧
          ∀ event ∈ w.inotify.unread, event ∈ w'.inotify.unread) ∧
        ∀ id, (Agrees w id ∨ ∃ entry ∈ batch,
            parseNotification w.fm.wspaceId entry.2 = some ('u', id)) →
          Agrees w' id)
      (fun _ _ => False) w := by
  have hs := sameFiles_windowOpened w
  have hlistens : (windowOpened w).fm.ignoreDBNotifications = false := by
    rw [hs.deaf, h.laid.listens]
  rw [handleDBNotifications, Act.wp_bind]
  refine Act.wp_of_apply (ignoreFSNotifications_apply w) ?_
  rw [Act.wp_bind, henv.calls .consumeInput]
  refine Act.wp_of_apply (Act.throwIf_apply_of_not (by decide) _ _) ?_
  rw [Act.wp_bind, Act.wp_get]
  beta_reduce
  simp only [hlistens, Bool.false_eq_true, if_false]
  have hloop := forEach_processDBNotification h.windowOpened
    fun entry hentry => by
      rw [hs.wspaceId]
      exact hbatch entry hentry
  refine hloop.mono ?_ fun _ _ h => h
  rintro _ w' ⟨⟨h', hs', hkept⟩, hagrees⟩
  rw [windowOpened_inotify] at hkept
  rw [hs.wspaceId] at hagrees
  exact ⟨⟨h', hs.trans hs', hkept⟩, fun id hid =>
    hagrees id (hid.imp_left Agrees.windowOpened)⟩

/-! ## Runs -/

theorem Announced.mono {s s' : Mirroring} {id : ℤ} (h : s.Announced id)
    (hqueue : ∀ message ∈ s.queue, message ∈ s'.queue)
    (hws : s'.world.fm.wspaceId = s.world.fm.wspaceId) :
    s'.Announced id := by
  obtain ⟨message, hmem, hparse⟩ := h
  exact ⟨message, hqueue message hmem, hws.symm ▸ hparse⟩

theorem Written.mono {w : World} {id : ℤ}
    {events events' : List InotifyEvent} (h : Written w id events)
    (hsub : ∀ event ∈ events, event ∈ events') : Written w id events' := by
  obtain ⟨event, hmem, hends⟩ := h
  exact ⟨event, hsub event hmem, hends⟩

theorem rewrite_tracking {s : Mirroring} {name : String} {data : Bytes}
    (h : Tracking s) (hvalid : s.Valid (.rewrite name data))
    (hfree : s.LossFree (.rewrite name data)) :
    Tracking (s.step (.rewrite name data)) := by
  obtain ⟨id, r, hr, rfl⟩ := hvalid
  have hs := writeFile_sameFiles s.world .other (s.world.fm.objects r).path
    data
  refine ⟨h.inOrder.writeFile hr hfree, h.messages, fun k => ?_⟩
  by_cases hk : k = id
  · subst hk
    exact Or.inr (Or.inr ((Written.of_sameFiles hs).mpr
      (h.inOrder.written_writeFile hr)))
  · rcases h.pending k with hagrees | hannounced | hwritten
    · exact Or.inl (h.inOrder.agrees_writeFile hr hk hagrees)
    · exact Or.inr (Or.inl hannounced)
    · refine Or.inr (Or.inr ((Written.of_sameFiles hs).mpr
        (hwritten.mono fun event hevent => ?_)))
      have hunread := writeFile_unread (h.inOrder.onDisk id r hr).exists
        .other data
      exact hunread.symm ▸ List.mem_append_left _ hevent

theorem remoteUpdate_tracking {s : Mirroring} {id version lastmod : ℤ}
    {data : Bytes} {message : String} (h : Tracking s)
    (hvalid : s.Valid (.remoteUpdate id version lastmod data message)) :
    Tracking (s.step (.remoteUpdate id version lastmod data message)) := by
  obtain ⟨hversion, hdate, hsize, hparse⟩ := hvalid
  refine ⟨h.inOrder.commit hversion hdate hsize, fun m hm => ?_, fun k => ?_⟩
  · rcases List.mem_append.mp hm with hm | hm
    · exact h.messages m hm
    · obtain rfl := List.mem_singleton.mp hm
      exact ⟨id, hparse⟩
  · by_cases hk : k = id
    · subst hk
      exact Or.inr (Or.inl ⟨message, by simp [step], hparse⟩)
    · have hs : SameFiles s.world (Replication.commitWorld s.world
          (.change id version lastmod data)) :=
        ⟨rfl, rfl, rfl, rfl, rfl, fun _ => rfl, fun _ => rfl, fun _ => rfl,
          rfl⟩
      rcases h.pending k with hagrees | hannounced | hwritten
      · exact Or.inl (hagrees.change hs rfl hk rfl)
      · refine Or.inr (Or.inl (hannounced.mono ?_ rfl))
        exact fun m hm => List.mem_append_left _ hm
      · exact Or.inr (Or.inr hwritten)

theorem notify_tracking {s : Mirroring} {message : String}
    (h : Tracking s) (hvalid : s.Valid (.notify message)) :
    Tracking (s.step (.notify message)) := by
  refine ⟨h.inOrder, fun m hm => ?_, fun k => ?_⟩
  · rcases List.mem_append.mp hm with hm | hm
    · exact h.messages m hm
    · obtain rfl := List.mem_singleton.mp hm
      exact hvalid
  · refine (h.pending k).imp_right (Or.imp_left fun hannounced => ?_)
    exact hannounced.mono (fun m hm => List.mem_append_left _ hm) rfl

theorem readEvents_inOrder {w : World} (h : InOrder w) (n : ℕ) :
    InOrder (w.readEvents n) := by
  have hs : SameFiles w (w.readEvents n) :=
    ⟨rfl, rfl, rfl, rfl, rfl, fun _ => rfl, fun _ => rfl, fun _ => rfl, rfl⟩
  exact h.of_sameFiles hs h.idle h.onDisk h.inTable
    fun _ hevent => Or.inl (List.mem_of_mem_drop hevent)

theorem deliverEvents_tracking {s : Mirroring} {envs : List Env}
    (h : Tracking s) (hvalid : s.Valid (.deliverEvents envs))
    (hfree : s.LossFree (.deliverEvents envs)) :
    Tracking (s.step (.deliverEvents envs)) := by
  let w₀ := s.world.readEvents envs.length
  have h₀ : InOrder w₀ := readEvents_inOrder h.inOrder envs.length
  cases hflag : s.world.fm.ignoreFSNotifications with
  | true =>
      have hrun : handleInotifyEvent (envs.zip s.world.inotify.unread) w₀ =
          (.returned (), w₀) := by
        rw [handleInotifyEvent, Act.bind_apply_returned (Act.get_apply w₀)]
        exact congrFun (if_pos hflag) w₀
      have hstep : s.step (.deliverEvents envs) = { s with world := w₀ } := by
        simp only [step]
        rw [hrun]
      rw [hstep]
      refine ⟨h₀, h.messages, fun k => ?_⟩
      rcases h.pending k with hagrees | hannounced | hwritten
      · exact Or.inl hagrees
      · exact Or.inr (Or.inl hannounced)
      · obtain ⟨event, hmem, hends⟩ := hwritten
        rw [← List.take_append_drop envs.length s.world.inotify.unread,
          List.mem_append] at hmem
        rcases hmem with hread | hleft
        · exact hfree hflag k ⟨event, hread, hends⟩
        · exact Or.inr (Or.inr ⟨event, hleft, hends⟩)
  | false =>
      have hbatch : ∀ entry ∈ envs.zip s.world.inotify.unread,
          entry.1.Works ∧ Known w₀ entry.2 := by
        intro entry hentry
        obtain ⟨henv, hevent⟩ := List.of_mem_zip hentry
        exact ⟨hvalid _ henv, h.inOrder.events _ hevent⟩
      have hrun := handleInotifyEvent_handled h₀ hbatch hflag
      obtain ⟨⟨h', hs, hinotify⟩, hagrees'⟩ :=
        (hrun.mono (fun _ _ h => h) fun _ _ h => h.elim).final
      refine ⟨h', fun m hm => ?_, fun k => ?_⟩
      · obtain ⟨id, hparse⟩ := h.messages m hm
        exact ⟨id, hs.wspaceId.symm ▸ hparse⟩
      · rcases h.pending k with hagrees | hannounced | hwritten
        · exact Or.inl (hagrees' k (Or.inl hagrees))
        · exact Or.inr (Or.inl (hannounced.mono (fun _ hm => hm)
            hs.wspaceId))
        · obtain ⟨event, hmem, hends⟩ := hwritten
          rcases mem_zip_or_drop envs hmem with
            ⟨entry, hentry, rfl⟩ | hleft
          · exact Or.inl (hagrees' k (Or.inr ⟨entry, hentry, hends⟩))
          · refine Or.inr (Or.inr ((Written.of_sameFiles hs).mpr ?_))
            exact ⟨event, hinotify.symm ▸ hleft, hends⟩

theorem deliverNotifications_tracking {s : Mirroring} {env : Env}
    {envs : List Env} (h : Tracking s)
    (hvalid : s.Valid (.deliverNotifications env envs)) :
    Tracking (s.step (.deliverNotifications env envs)) := by
  have hbatch : ∀ entry ∈ envs.zip s.queue, entry.1.Works ∧
      ∃ id, parseNotification s.world.fm.wspaceId entry.2 =
        some ('u', id) := by
    intro entry hentry
    obtain ⟨henv, hmessage⟩ := List.of_mem_zip hentry
    exact ⟨hvalid.2 _ henv, h.messages _ hmessage⟩
  have hrun := handleDBNotifications_notified hvalid.1 h.inOrder hbatch
  obtain ⟨⟨h', hs, hkept⟩, hagrees'⟩ :=
    (hrun.mono (fun _ _ h => h) fun _ _ h => h.elim).final
  refine ⟨h', fun m hm => ?_, fun k => ?_⟩
  · obtain ⟨id, hparse⟩ := h.messages m (List.mem_of_mem_drop hm)
    exact ⟨id, hs.wspaceId.symm ▸ hparse⟩
  · rcases h.pending k with hagrees | hannounced | hwritten
    · exact Or.inl (hagrees' k (Or.inl hagrees))
    · obtain ⟨message, hmem, hparse⟩ := hannounced
      rcases mem_zip_or_drop envs hmem with
        ⟨entry, hentry, rfl⟩ | hleft
      · exact Or.inl (hagrees' k (Or.inr ⟨entry, hentry, hparse⟩))
      · exact Or.inr (Or.inl ⟨message, hleft, hs.wspaceId.symm ▸ hparse⟩)
    · exact Or.inr (Or.inr ((Written.of_sameFiles hs).mpr
        (hwritten.mono hkept)))

theorem ignoreOff_tracking {s : Mirroring} (h : Tracking s) :
    Tracking (s.step .ignoreOff) := by
  by_cases htimer : 0 < s.world.fm.ignoreOffTimers
  · have hs : SameFiles s.world (handleIgnoreFSNotesOff s.world).2 :=
      ⟨rfl, rfl, rfl, rfl, rfl, fun _ => rfl, fun _ => rfl, fun _ => rfl,
        rfl⟩
    rw [step, if_pos htimer]
    exact ⟨h.inOrder.of_sameFiles hs h.inOrder.idle h.inOrder.onDisk
      h.inOrder.inTable fun _ he => Or.inl he, h.messages, h.pending⟩
  · rw [step, if_neg htimer]
    exact h

/-- Every kind of step keeps the invariant, as long as no event that a file
needs is dropped. -/
theorem Tracking.step {s : Mirroring} {op : MirrorOp} (h : Tracking s)
    (hvalid : s.Valid op) (hfree : s.LossFree op) :
    Tracking (s.step op) := by
  cases op with
  | rewrite name data => exact rewrite_tracking h hvalid hfree
  | remoteUpdate id version lastmod data message =>
      exact remoteUpdate_tracking h hvalid
  | notify message => exact notify_tracking h hvalid
  | deliverEvents envs => exact deliverEvents_tracking h hvalid hfree
  | deliverNotifications env envs =>
      exact deliverNotifications_tracking h hvalid
  | ignoreOff => exact ignoreOff_tracking h

/-- When nothing is on its way, nothing differs. -/
theorem Tracking.synced {s : Mirroring} (h : Tracking s)
    (hquiescent : s.Quiescent) : s.Synced := by
  obtain ⟨hunread, hqueue, -⟩ := hquiescent
  intro id
  rcases h.pending id with hagrees | ⟨message, hmem, -⟩ | ⟨event, hmem, -⟩
  · exact hagrees
  · rw [hqueue] at hmem
    cases hmem
  · rw [hunread] at hmem
    cases hmem

/-- In every run in which no event that a file needs is dropped, both sides
of every file agree in every quiescent state reached. -/
theorem synced_of_lossFree {s : Mirroring} {ops : List MirrorOp}
    (h : Tracking s) (hvalid : Along Mirroring.step Valid s ops)
    (hfree : Along Mirroring.step LossFree s ops)
    (hquiescent : (run Mirroring.step s ops).Quiescent) :
    (run Mirroring.step s ops).Synced := by
  have hguard := along_and.mpr ⟨hvalid, hfree⟩
  have hfinal : Tracking (run Mirroring.step s ops) :=
    run_invariant (I := Tracking)
      (fun _ _ h hg => h.step hg.1 hg.2) h hguard
  exact hfinal.synced hquiescent

/-! ## One file -/

/-- The session of the one file `a.R`, watched, with nothing pending. -/
def oneFileWatched : Mirroring where
  world := (setupInotify (fun _ => Env.succeeding 3 1)
    oneFileSession.world).2.readEvents 1
  queue := []

theorem oneFileWatched_cached {id : ℤ} {r : ℕ} :
    Cached oneFileWatched.world id r ↔ id = 7 ∧ r = 0 := by
  have hfiles : oneFileWatched.world.fm.filesById =
      (∅ : Map ℤ DBFileInfoPtr).insert 7 (some 0) := rfl
  rw [Cached, hfiles, Map.getElem?_insert]
  constructor
  · intro h
    split at h
    next heq => exact ⟨heq.symm, (Option.some.inj (Option.some.inj h)).symm⟩
    next => simp at h
  · rintro ⟨rfl, rfl⟩
    rfl

theorem oneFileWatched_tracking : Tracking oneFileWatched := by
  have hwatches : oneFileWatched.world.inotify.watches =
      (∅ : Map ℤ Watch).insert 3 ⟨"a.R", fileMask⟩ := rfl
  have hunread : oneFileWatched.world.inotify.unread = [] := by decide
  have hpaths : ∀ id r id' r', Cached oneFileWatched.world id r →
      Cached oneFileWatched.world id' r' →
      (oneFileWatched.world.fm.objects r).path =
        (oneFileWatched.world.fm.objects r').path → id = id' := by
    intro id r id' r' hr hr' _
    rw [(oneFileWatched_cached.mp hr).1, (oneFileWatched_cached.mp hr').1]
  have hlaid : Laid oneFileWatched.world := by
    refine ⟨rfl, rfl, fun id ptr hptr => ?_, fun id r hr => ?_,
      fun id r hr => ?_, fun wd watch hwatch => ?_, hpaths⟩
    · have hfiles : oneFileWatched.world.fm.filesById =
          (∅ : Map ℤ DBFileInfoPtr).insert 7 (some 0) := rfl
      rw [hfiles, Map.getElem?_insert] at hptr
      split at hptr
      next heq =>
        subst heq
        exact ⟨0, (Option.some.inj hptr).symm, rfl, by decide⟩
      next => simp at hptr
    · obtain ⟨rfl, rfl⟩ := oneFileWatched_cached.mp hr
      rfl
    · obtain ⟨rfl, rfl⟩ := oneFileWatched_cached.mp hr
      decide
    · rw [hwatches, Map.getElem?_insert] at hwatch
      split at hwatch
      next heq =>
        subst heq
        exact ⟨7, 0, oneFileWatched_cached.mpr ⟨rfl, rfl⟩, rfl⟩
      next => simp at hwatch
  have hcached : ∀ id r, Cached oneFileWatched.world id r →
      OnDisk oneFileWatched.world r ∧ InTable oneFileWatched.world id r := by
    intro id r hr
    obtain ⟨rfl, rfl⟩ := oneFileWatched_cached.mp hr
    exact ⟨⟨[], by decide, by decide⟩,
      ⟨7, 1, "a.R", 0, []⟩, by decide, by decide, by decide, by decide⟩
  refine ⟨⟨hlaid, rfl, fun id r hr => (hcached id r hr).1,
    fun id r hr => (hcached id r hr).2, fun event hevent => ?_⟩,
    fun m hm => ?_, fun id => Or.inl fun r hr => ?_⟩
  · rw [hunread] at hevent
    cases hevent
  · cases hm
  · obtain ⟨rfl, rfl⟩ := oneFileWatched_cached.mp hr
    decide

/-- A command rewrites the file twice; the session stores the first contents,
handles its own notification, and reads the events of the second write while
the window is still open. -/
def secondWrite : List MirrorOp :=
  let env := Env.succeeding 3 1
  [.rewrite "a.R" [1], .deliverEvents [env, env, env], .notify "u7/1/a",
    .deliverNotifications env [env], .rewrite "a.R" [2],
    .deliverEvents [env, env, env, env, env, env], .ignoreOff]

theorem works_of_mem_replicate {n : ℕ} {newWd newId : ℤ} :
    ∀ env ∈ List.replicate n (Env.succeeding newWd newId), env.Works := by
  intro env henv
  obtain rfl := List.eq_of_mem_replicate henv
  exact Env.succeeding_works newWd newId

/-- The second write is lost: nothing is pending, and the database holds the
bytes of the first. -/
theorem synced_fails_on_second_write :
    Tracking oneFileWatched ∧
      Along Mirroring.step Valid oneFileWatched secondWrite ∧
      (run Mirroring.step oneFileWatched secondWrite).Quiescent ∧
      ¬ (run Mirroring.step oneFileWatched secondWrite).Synced := by
  refine ⟨oneFileWatched_tracking, ⟨⟨7, 0, by decide, by decide⟩,
    works_of_mem_replicate (n := 3), ⟨7, by decide⟩,
    ⟨Env.succeeding_works 3 1, works_of_mem_replicate (n := 1)⟩,
    ⟨7, 0, by decide, by decide⟩, works_of_mem_replicate (n := 6),
    trivial, trivial⟩, ⟨by decide, by decide, by decide⟩, ?_⟩
  intro hsynced
  have hdisk := hsynced 7 0 (by decide)
  revert hdisk
  decide

/-- One write whose events are read while the window is closed. -/
theorem synced_after_one_write :
    (run Mirroring.step oneFileWatched
      [.rewrite "a.R" [1], .deliverEvents [Env.succeeding 3 1,
        Env.succeeding 3 1, Env.succeeding 3 1], .ignoreOff]).Synced := by
  have hsize : ([1] : Bytes).length < 2 ^ 31 := by decide
  refine synced_of_lossFree oneFileWatched_tracking
    ⟨⟨7, 0, by decide, by decide⟩, works_of_mem_replicate (n := 3),
      trivial, trivial⟩
    ⟨hsize, fun hopen => ?_, trivial, trivial⟩
    ⟨by decide, by decide, by decide⟩
  have hclosed : (oneFileWatched.step
      (.rewrite "a.R" [1])).world.fm.ignoreFSNotifications = false := rfl
  rw [hclosed] at hopen
  cases hopen

end Mirroring

end Rc2Compute.Files
