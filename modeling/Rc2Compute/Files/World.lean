import Rc2Compute.Support.Action
import Rc2Compute.Support.BigEndian
import Rc2Compute.Support.Exceptions
import Rc2Compute.Support.OrdMap
import Mathlib.Data.Int.Notation

/-!
# What a session's file code works on

The state behind `FileManager` and `DBFileSource`: the fields of the two
objects, the session's working directory, the kernel's inotify queue and the
database.  File names are plain components of the working directory.  The
modification time of a file is whatever `stat` reports for it.

Each operation runs in an environment that fixes what the calls it makes to
the kernel and the database answer.
-/

namespace Rc2Compute.Files

/-! ## Machine integers -/

/-- Conversion to `uint32_t`. -/
def toUInt32 (x : ℤ) : ℤ := x % 2 ^ 32

theorem toUInt32_of_lt {x : ℤ} (h0 : 0 ≤ x) (hx : x < 2 ^ 32) :
    toUInt32 x = x :=
  Int.emod_eq_of_lt h0 hx

/-- Conversion to `int`. -/
def toInt32 (x : ℤ) : ℤ := Int.bmod x (2 ^ 32)

theorem toInt32_of_fits {x : ℤ} (hlo : -2 ^ 31 ≤ x) (hhi : x < 2 ^ 31) :
    toInt32 x = x := by
  rw [toInt32, Int.bmod_eq_of_le] <;> omega

/-- The values a cast to `int4` accepts in a query. -/
def fitsInt4 (x : ℤ) : Bool := -2 ^ 31 ≤ x ∧ x < 2 ^ 31

/-! ## The manager's own state -/

/-- A cached file.  The manager's two maps share these objects. -/
structure DBFileInfo where
  id : ℤ
  version : ℤ
  name : String
  path : String
  watchDescriptor : ℤ
deriving DecidableEq, Repr

/-- A `shared_ptr<DBFileInfo>`: the number of an object, or null. -/
abbrev DBFileInfoPtr := Option ℕ

structure PendingImage where
  fileName : String
  imgNumStr : String
  wd : ℤ
deriving DecidableEq, Repr

/-- The fields of `FileManager::Impl` and of its `DBFileSource`.  `objects`
holds the shared file objects, of which `nextObject` have been allocated, and
`ignoreOffTimers` counts the scheduled `handleIgnoreFSNotesOff` events. -/
structure FileManager where
  wspaceId : ℤ
  sessionRecId : ℤ
  sessionImageBatch : ℤ
  workingDir : String
  objects : ℕ → DBFileInfo
  nextObject : ℕ
  filesById : Map ℤ DBFileInfoPtr
  filesByWatchDesc : Map ℤ DBFileInfoPtr
  manuallyAddedFiles : List String
  pendingImagesByWatchDesc : Map ℤ PendingImage
  imageIds : List ℤ
  ignoreFSNotifications : Bool
  ignoreDBNotifications : Bool
  ignoreOffTimers : ℕ

/-! ## The kernel -/

def IN_MODIFY : UInt32 := 0x2
def IN_CLOSE_WRITE : UInt32 := 0x8
def IN_CLOSE_NOWRITE : UInt32 := 0x10
def IN_OPEN : UInt32 := 0x20
def IN_CREATE : UInt32 := 0x100
def IN_DELETE : UInt32 := 0x200
def IN_DELETE_SELF : UInt32 := 0x400
def IN_IGNORED : UInt32 := 0x8000
def IN_ISDIR : UInt32 := 0x40000000

/-- Who changed a file.  The kernel does not report it. -/
inductive Writer where
  | other
  | loadFiles
deriving DecidableEq, Repr

/-- An inotify event, with the writer that caused it for the specifications'
use only. -/
structure InotifyEvent where
  wd : ℤ
  mask : UInt32
  name : String
  writer : Writer
deriving DecidableEq, Repr

structure Watch where
  path : String
  mask : UInt32
deriving DecidableEq, Repr

/-- The watches on the files of the working directory, the descriptor of the
watch on the directory itself, and the events nobody has read yet. -/
structure Inotify where
  rootDir : Option ℤ
  watches : Map ℤ Watch
  unread : List InotifyEvent

/-! ## The database -/

structure FileRow where
  version : ℤ
  wspaceid : ℤ
  name : String
  filesize : ℤ
  lastmodified : ℤ
deriving DecidableEq, Repr

structure ImageRow where
  sessionid : ℤ
  batchid : ℤ
  name : String
  imgdata : Bytes
deriving DecidableEq, Repr

/-- The tables the session reads and writes, by primary key. -/
structure Tables where
  rcfile : Map ℤ FileRow
  rcfiledata : Map ℤ Bytes
  rcworkspacedata : Map ℤ Bytes
  sessionimage : Map ℤ ImageRow

/-- The committed tables and, inside a transaction, its working copy, which
is `none` once a statement of the transaction has failed. -/
structure Database where
  committed : Tables
  transaction : Option (Option Tables)

structure World where
  fm : FileManager
  disk : Map String Bytes
  inotify : Inotify
  db : Database

/-! ## Calls to the outside -/

/-- The outside calls that can fail. -/
inductive Call where
  | stat
  | inotifyAddWatch
  | readFile
  | writeFile
  | remove
  | begin
  | nextval
  | escapeLiteral
  | insertFile
  | insertFileData
  | updateFile
  | updateFileData
  | deleteFile
  | selectFiles
  | commit
  | fileSize
  | nextImageId
  | selectBatch
  | insertImage
  | consumeInput
  | selectWorkspace
  | findWorkspace
  | fileExists
  | lockTable
  | selectWorkspaceData
  | updateWorkspaceData
  | insertWorkspaceData
deriving DecidableEq, Repr

/-- What the outside answers while one operation runs: which calls fail and
with what text, the descriptor of a new watch, the next value of a sequence,
the content of fresh memory, the modification time of a file, how far the
reading of an opened file gets when it breaks off, and what reaches the
database of a parameter whose length is given as a negative number. -/
structure Env where
  fails : Call → Bool
  errorMessage : String
  newWd : ℤ
  newId : ℤ
  uninitialised : ℤ
  memory : ℕ → UInt8
  mtime : ℤ
  readStops : Option ℕ
  negativeLength : Bytes → Option Bytes

/-- Every outside call succeeds, and opened files are read to their end. -/
structure Env.Succeeds (env : Env) : Prop where
  calls : ∀ call, env.fails call = false
  reads : env.readStops = none

/-- The outside that lets everything succeed. -/
def Env.succeeding (newWd newId : ℤ) : Env where
  fails _ := false
  errorMessage := ""
  newWd := newWd
  newId := newId
  uninitialised := 0
  memory _ := 0
  mtime := 0
  readStops := none
  negativeLength _ := none

theorem Env.succeeding_succeeds (newWd newId : ℤ) :
    (Env.succeeding newWd newId).Succeeds where
  calls _ := rfl
  reads := rfl

/-- Besides, the modification times it reports can be cast to `int4`. -/
structure Env.Works (env : Env) : Prop extends env.Succeeds where
  dated : fitsInt4 env.mtime = true

theorem Env.succeeding_works (newWd newId : ℤ) :
    (Env.succeeding newWd newId).Works where
  toSucceeds := Env.succeeding_succeeds newWd newId
  dated := rfl

/-- What a buffer holds after `data` has been read into it: where the reading
breaks off, the rest of the buffer is fresh memory. -/
def Env.buffer (env : Env) (data : Bytes) : Bytes :=
  match env.readStops with
  | none => data
  | some n =>
      data.take n ++ ((List.range data.length).drop n).map env.memory

theorem Env.buffer_of_reads {env : Env} (h : env.readStops = none)
    (data : Bytes) : env.buffer data = data := by
  rw [Env.buffer, h]

@[simp] theorem Env.length_buffer (env : Env) (data : Bytes) :
    (env.buffer data).length = data.length := by
  rw [Env.buffer]
  split
  · rfl
  · simp only [List.length_append, List.length_take, List.length_map,
      List.length_drop, List.length_range]
    omega

/-! ## A session before it has loaded its files -/

def FileManager.initial (workingDir : String)
    (wspaceId sessionRecId : ℤ) : FileManager where
  wspaceId := wspaceId
  sessionRecId := sessionRecId
  sessionImageBatch := 0
  workingDir := workingDir
  objects _ := ⟨0, 0, "", "", 0⟩
  nextObject := 0
  filesById := ∅
  filesByWatchDesc := ∅
  manuallyAddedFiles := []
  pendingImagesByWatchDesc := ∅
  imageIds := []
  ignoreFSNotifications := false
  ignoreDBNotifications := false
  ignoreOffTimers := 0

/-- An empty working directory over a database. -/
def World.initial (workingDir : String) (wspaceId sessionRecId : ℤ)
    (db : Tables) : World where
  fm := FileManager.initial workingDir wspaceId sessionRecId
  disk := ∅
  inotify := ⟨some 1, ∅, []⟩
  db := ⟨db, none⟩

/-- The file code: an action on the world that may throw. -/
abbrev Prog := Act World CxxException

/-! ## The kernel's side of a change in the working directory -/

/-- The events of a change to the file `name`, one for each watch on it and
each mask of the change the watch asks for. -/
def Inotify.fileEvents (k : Inotify) (writer : Writer) (name : String)
    (masks : List UInt32) : List InotifyEvent :=
  (k.watches.toList.filter fun w => w.2.path = name).flatMap fun w =>
    (masks.filter fun mask => mask &&& w.2.mask ≠ 0).map fun mask =>
      { wd := w.1, mask := mask, name := "", writer := writer }

/-- The event of a change to the entry `name` of the working directory. -/
def Inotify.rootEvents (k : Inotify) (writer : Writer) (name : String)
    (mask : UInt32) : List InotifyEvent :=
  match k.rootDir with
  | some wd => [{ wd := wd, mask := mask, name := name, writer := writer }]
  | none => []

/-- Write a file of the working directory from its start and close it. -/
def World.writeFile (w : World) (writer : Writer) (name : String)
    (data : Bytes) : World :=
  let created :=
    if w.disk.contains name then []
    else w.inotify.rootEvents writer name IN_CREATE
  { w with
    disk := w.disk.insert name data
    inotify :=
      { w.inotify with
        unread := w.inotify.unread ++ created ++
          w.inotify.fileEvents writer name
            [IN_OPEN, IN_MODIFY, IN_CLOSE_WRITE] } }

/-- Remove a file of the working directory; its watches go with it. -/
def World.removeFile (w : World) (writer : Writer) (name : String) : World :=
  if w.disk.contains name then
    { w with
      disk := w.disk.erase name
      inotify :=
        { w.inotify with
          watches := w.inotify.watches.filter fun _ watch => watch.path ≠ name
          unread := w.inotify.unread ++
            w.inotify.fileEvents writer name [IN_DELETE_SELF] ++
            w.inotify.rootEvents writer name IN_DELETE } }
  else
    w

/-- The world whose first `n` unread events have been read. -/
def World.readEvents (w : World) (n : ℕ) : World :=
  { w with inotify := { w.inotify with unread := w.inotify.unread.drop n } }

/-- `inotify_add_watch` on a file: a descriptor, or -1. -/
def inotify_add_watch (env : Env) (path : String) (mask : UInt32) :
    Prog ℤ := do
  if env.fails .inotifyAddWatch then
    pure (-1)
  else
    Act.modify fun w =>
      { w with inotify :=
        { w.inotify with
          watches := w.inotify.watches.insert env.newWd ⟨path, mask⟩ } }
    pure env.newWd

/-- `inotify_rm_watch`, which reports the removal as an event. -/
def inotify_rm_watch (wd : ℤ) : Prog Unit :=
  Act.modify fun w =>
    if w.inotify.watches.contains wd then
      { w with inotify :=
        { w.inotify with
          watches := w.inotify.watches.erase wd
          unread := w.inotify.unread ++
            [{ wd := wd, mask := IN_IGNORED, name := "", writer := .other }] } }
    else
      w

/-! ## Pointers and map indexing -/

/-- Dereference a pointer; a null pointer is undefined behaviour. -/
def deref : DBFileInfoPtr → Prog ℕ
  | some r => pure r
  | none => Act.undefined

/-- Read an object through a pointer. -/
def load (ptr : DBFileInfoPtr) : Prog DBFileInfo := do
  let r ← deref ptr
  let w ← Act.get
  pure (w.fm.objects r)

/-- Change an object through a pointer. -/
def store (ptr : DBFileInfoPtr) (f : DBFileInfo → DBFileInfo) :
    Prog Unit := do
  let r ← deref ptr
  Act.modify fun w =>
    { w with fm :=
      { w.fm with objects := Function.update w.fm.objects r (f (w.fm.objects r)) } }

/-- `new DBFileInfo(anId, aVersion, aName)`: the identifiers pass through
`uint32_t` and the watch descriptor is left uninitialised. -/
def newDBFileInfo (env : Env) (anId aVersion : ℤ) (aName : String) :
    Prog DBFileInfoPtr := fun w =>
  let info : DBFileInfo :=
    { id := toUInt32 anId
      version := toUInt32 aVersion
      name := aName
      path := aName
      watchDescriptor := env.uninitialised }
  (.returned (some w.fm.nextObject),
    { w with fm :=
      { w.fm with
        objects := Function.update w.fm.objects w.fm.nextObject info
        nextObject := w.fm.nextObject + 1 } })

/-- `filesById_[id]`, which inserts a null pointer for an absent key. -/
def filesByIdIndex (id : ℤ) : Prog DBFileInfoPtr := fun w =>
  match w.fm.filesById[id]? with
  | some ptr => (.returned ptr, w)
  | none =>
      (.returned none,
        { w with fm :=
          { w.fm with filesById := w.fm.filesById.insert id none } })

/-- `filesByWatchDesc_[wd]`, which inserts a null pointer for an absent
key. -/
def filesByWatchDescIndex (wd : ℤ) : Prog DBFileInfoPtr := fun w =>
  match w.fm.filesByWatchDesc[wd]? with
  | some ptr => (.returned ptr, w)
  | none =>
      (.returned none,
        { w with fm :=
          { w.fm with
            filesByWatchDesc := w.fm.filesByWatchDesc.insert wd none } })

end Rc2Compute.Files
