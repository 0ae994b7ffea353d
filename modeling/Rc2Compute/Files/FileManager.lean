import Rc2Compute.Files.DBFileSource
import Rc2Compute.Support.CString

/-!
# FileManager

Watching the files of the working directory, storing the images R draws, and
the two sources of change the event loop hands to the manager: inotify events
and database notifications.  Every outside call of one event or message is
answered by its own environment.
-/

namespace Rc2Compute.Files

/-! ## The ignore window -/

/-- `ignoreFSNotifications`: set the flag and schedule the event that clears
it, unless the flag is set already. -/
def ignoreFSNotifications : Prog Unit :=
  Act.modify fun w =>
    if w.fm.ignoreFSNotifications then w
    else { w with fm :=
      { w.fm with
        ignoreFSNotifications := true
        ignoreOffTimers := w.fm.ignoreOffTimers + 1 } }

/-- The scheduled event. -/
def handleIgnoreFSNotesOff : Prog Unit :=
  Act.modify fun w =>
    { w with fm :=
      { w.fm with
        ignoreFSNotifications := false
        ignoreOffTimers := w.fm.ignoreOffTimers - 1 } }

/-! ## Connecting -/

/-- The `where wspaceid = ` clause of a workspace. -/
def whereWspace (wspaceId : ℤ) (_id : ℤ) (row : FileRow) : Bool :=
  row.wspaceid = wspaceId

/-- `initializeSource`.  Whether the workspace exists is up to the
environment. -/
def initializeSource (env : Env) (wspaceId : ℤ) : Prog Unit := do
  Act.throwIf (env.fails .selectWorkspace) ⟨.dbException,
    "rowsReturned called when query did not return rows"⟩
  Act.throwIf (env.fails .findWorkspace)
    ⟨.runtimeError, "invalid workspace id: " ++ toString wspaceId⟩

def connect (env : Env) (wspaceId sessionRecId : ℤ) : Prog Unit := do
  Act.modify fun w =>
    { w with fm :=
      { w.fm with wspaceId := wspaceId, sessionRecId := sessionRecId } }
  initializeSource env wspaceId
  loadFiles env (whereWspace wspaceId)
  Act.modify fun w => { w with fm := { w.fm with sessionImageBatch := 0 } }

/-! ## Watching files -/

/-- The mask of the watch on a file. -/
def fileMask : UInt32 :=
  IN_OPEN ||| IN_CLOSE_WRITE ||| IN_DELETE_SELF ||| IN_MODIFY

def watchFile (env : Env) (file : DBFileInfoPtr) : Prog Unit := do
  let info ← load file
  let w ← Act.get
  Act.throwIf (← statFails env info.path)
    ⟨.statException, "stat failed for watch " ++ filePath w info.path⟩
  let wd ← inotify_add_watch env info.path fileMask
  store file fun info => { info with watchDescriptor := wd }
  Act.throwIf (wd = -1)
    (FormattedException ("inotify_add_warched failed " ++ info.name))
  Act.modify fun w =>
    { w with fm :=
      { w.fm with
        filesByWatchDesc := w.fm.filesByWatchDesc.insert wd file } }

/-- The loop of `setupInotify` over the cached files.  Only a failed `stat`
is caught. -/
def setupInotify (envs : ℤ → Env) : Prog Unit := do
  let w ← Act.get
  Act.forEach w.fm.filesById.toList fun entry =>
    Act.tryCatch (watchFile (envs entry.1) entry.2) fun e =>
      if e.type = .statException then pure () else Act.throw e

/-- The first cached file with this name, in the order of the ids. -/
def findByName (fname : String) :
    List (ℤ × DBFileInfoPtr) → Prog DBFileInfoPtr
  | [] => pure none
  | (_, ptr) :: rest => do
      let info ← load ptr
      if info.name = fname then pure ptr else findByName fname rest

def fileExistsWithName (fname : String) : Prog Bool := do
  let w ← Act.get
  let ptr ← findByName fname w.fm.filesById.toList
  pure ptr.isSome

/-- What `findOrAddFile` and `fileInfoForId` report about a file. -/
structure FileInfo where
  id : ℤ
  version : ℤ
  name : String
deriving DecidableEq, Repr

def fileInfoForDBPtr (ptr : DBFileInfoPtr) : Prog FileInfo := do
  let info ← load ptr
  pure ⟨info.id, info.version, info.name⟩

def findOrAddFile (env : Env) (fname : String) : Prog FileInfo := do
  let w ← Act.get
  let ptr ← findByName fname w.fm.filesById.toList
  if ptr.isSome then
    fileInfoForDBPtr ptr
  else
    let fid ← insertDBFile env fname
    Act.modify fun w =>
      { w with fm :=
        { w.fm with
          manuallyAddedFiles := w.fm.manuallyAddedFiles.insert fname } }
    fileInfoForDBPtr (← filesByIdIndex fid)

/-! ## Images -/

/-- `imgRegex_`, `rc2img(\d+).png`, on a whole file name.  The dot stands for
any byte.  The result is the captured number. -/
def matchImage (fname : String) : Option String :=
  let text := fname.toList
  let middle := (text.drop 6).take (text.length - 9)
  let digits := middle.dropLast
  if text.take 6 = "rc2img".toList ∧ text.drop (text.length - 3) = "png".toList ∧
      9 ≤ text.length ∧ digits ≠ [] ∧ digits.all Char.isDigit ∧
      middle.getLast?.all (·.utf8Size = 1) then
    some (String.ofList digits)
  else
    none

/-- The largest batch of the session's stored images, and 0 when there is
none. -/
def maxBatch (t : Tables) (sessionid : ℤ) : ℤ :=
  (t.sessionimage.toList.filterMap fun (_, image) =>
    if image.sessionid = sessionid then some image.batchid else none).max?.getD 0

/-- The first image of a session continues the batches it has stored. -/
def startImageBatch (env : Env) : Prog Unit := do
  let w ← Act.get
  if w.fm.sessionImageBatch ≤ 0 then do
    let batch ← longFromQuery env .selectBatch
      (maxBatch w.db.committed w.fm.sessionRecId)
    Act.modify fun w =>
      { w with fm := { w.fm with sessionImageBatch := batch + 1 } }
  else
    pure ()

def insertImage (env : Env) (fname _imgNumStr : String) : Prog Unit := do
  let data ← readFileBlob env fname
  if data.length < 1 then
    pure ()
  else do
    let imgId ← longFromQuery env .nextImageId env.newId
    Act.throwIf (imgId ≤ 0)
      (FormattedException "failed to get session image id")
    startImageBatch env
    let w ← Act.get
    let row : Bytes → ImageRow := fun imgdata =>
      { sessionid := w.fm.sessionRecId
        batchid := w.fm.sessionImageBatch
        name := "img" ++ toString imgId ++ ".png"
        imgdata := imgdata }
    let res ← executeQuery env .insertImage fun t =>
      if t.sessionimage.contains imgId then none
      else (byteaParam env data).map fun imgdata =>
        { t with sessionimage := t.sessionimage.insert imgId (row imgdata) }
    Act.throwIf (!res) (FormattedException
      ("failed to insert image in db: " ++ env.errorMessage))
    Act.modify fun w =>
      { w with fm := { w.fm with imageIds := w.fm.imageIds ++ [imgId] } }
    ignoreFSNotifications
    Act.throwIf (env.fails .remove) ⟨.filesystemError, env.errorMessage⟩
    Act.modify fun w => w.removeFile .other fname

def startImageWatch (env : Env) (fname imgNum : String) : Prog Unit := do
  let wd ← inotify_add_watch env fname (IN_CLOSE_WRITE ||| IN_CLOSE_NOWRITE)
  Act.throwIf (wd = -1)
    (FormattedException ("inotify_add_warched failed " ++ fname))
  Act.modify fun w =>
    { w with fm :=
      { w.fm with
        pendingImagesByWatchDesc :=
          w.fm.pendingImagesByWatchDesc.insertIfNew wd ⟨fname, imgNum, wd⟩ } }

def stopImageWatch (wd : ℤ) : Prog Unit := do
  inotify_rm_watch wd
  Act.modify fun w =>
    { w with fm :=
      { w.fm with
        pendingImagesByWatchDesc := w.fm.pendingImagesByWatchDesc.erase wd } }

/-- `fs::file_size` without an error code: it throws for a missing file. -/
def fileSize (env : Env) (fname : String) : Prog ℕ := do
  let w ← Act.get
  match if env.fails .fileSize then none else w.disk[fname]? with
  | some data => pure data.length
  | none => Act.throw ⟨.filesystemError, env.errorMessage⟩

def cleanupImageWatch (envs : ℤ → Env) : Prog Unit := do
  let w ← Act.get
  Act.forEach w.fm.pendingImagesByWatchDesc.toList fun (wd, image) => do
    let _size ← fileSize (envs wd) image.fileName
    insertImage (envs wd) image.fileName image.imgNumStr
    inotify_rm_watch image.wd
  Act.modify fun w =>
    { w with fm := { w.fm with pendingImagesByWatchDesc := ∅ } }

def resetWatch : Prog Unit :=
  Act.modify fun w =>
    { w with fm :=
      { w.fm with
        sessionImageBatch :=
          if w.fm.imageIds.length > 0 then w.fm.sessionImageBatch + 1
          else w.fm.sessionImageBatch
        imageIds := []
        manuallyAddedFiles := [] } }

/-- `checkWatch`: the image ids and the batch. -/
def checkWatch : Prog (List ℤ × ℤ) := do
  let w ← Act.get
  pure (w.fm.imageIds, w.fm.sessionImageBatch)

/-! ## Inotify events -/

/-- The event's type without the flags in the upper half of the mask. -/
def InotifyEvent.evtype (event : InotifyEvent) : UInt32 :=
  event.mask &&& 0xffff

/-- The `IN_CREATE` branch: a new image is watched, a new file is stored. -/
def handleCreate (env : Env) (event : InotifyEvent) : Prog Unit := do
  if event.mask &&& IN_ISDIR ≠ 0 ∨ event.name.toList.head? = some '.' then
    pure ()
  else
    match matchImage event.name with
    | some imgNum => startImageWatch env event.name imgNum
    | none => do
        let w ← Act.get
        if event.name ∈ w.fm.manuallyAddedFiles then
          pure ()
        else if ← fileExistsWithName event.name then
          pure ()
        else
          let newFileId ← insertDBFile env event.name
          if newFileId > 0 then
            watchFile env (← filesByIdIndex newFileId)

/-- The `IN_CLOSE_WRITE` branch. -/
def handleCloseWrite (env : Env) (event : InotifyEvent) : Prog Unit := do
  let w ← Act.get
  match w.fm.pendingImagesByWatchDesc[event.wd]? with
  | some image => do
      insertImage env image.fileName image.imgNumStr
      stopImageWatch event.wd
  | none => do
      let fobj ← filesByWatchDescIndex event.wd
      let _info ← load fobj
      updateDBFile env fobj

/-- The `IN_DELETE_SELF` branch. -/
def handleDeleteSelf (env : Env) (event : InotifyEvent) : Prog Unit := do
  let fobj ← filesByWatchDescIndex event.wd
  let info ← load fobj
  removeDBFile env fobj
  Act.modify fun w =>
    { w with fm :=
      { w.fm with
        filesByWatchDesc := w.fm.filesByWatchDesc.erase info.id } }
  inotify_rm_watch event.wd

/-- The `IN_OPEN` and `IN_MODIFY` branches, which only log the name. -/
def handleLogged (event : InotifyEvent) : Prog Unit := do
  let fobj ← filesByWatchDescIndex event.wd
  let _info ← load fobj
  pure ()

/-- The body of the loop of `handleInotifyEvent`; every exception it sees
derives from `std::exception` and is logged. -/
def handleEvent (env : Env) (event : InotifyEvent) : Prog Unit :=
  Act.tryCatch
    (if event.evtype = IN_CREATE then handleCreate env event
    else if event.evtype = IN_CLOSE_WRITE then handleCloseWrite env event
    else if event.evtype = IN_DELETE_SELF then handleDeleteSelf env event
    else if event.evtype = IN_OPEN ∨ event.evtype = IN_MODIFY then
      handleLogged event
    else pure ())
    fun _ => pure ()

/-- `handleInotifyEvent` on the events of one read.  Events that arrive while
the flag is set are dropped. -/
def handleInotifyEvent (batch : List (Env × InotifyEvent)) : Prog Unit := do
  let w ← Act.get
  if w.fm.ignoreFSNotifications then
    pure ()
  else do
    ignoreFSNotifications
    Act.forEach batch fun entry => handleEvent entry.1 entry.2

/-! ## Database notifications -/

/-- The head of `processDBNotification`: the type and the file id of a
well-formed message for this workspace. -/
def parseNotification (wspaceId : ℤ) (message : String) :
    Option (Char × ℤ) :=
  match message.toList with
  | type :: numStr =>
      if ¬ (type = 'i' ∨ type = 'u' ∨ type = 'd') ∨ numStr = [] then
        none
      else
        match numStr.splitOn '/' with
        | [fileId, fileWspaceId, _] =>
            if wspaceId ≠ atol fileWspaceId then none
            else some (type, atol fileId)
        | _ => none
  | [] => none

/-- The `'d'` branch. -/
def processDelete (env : Env) (fileId : ℤ) : Prog Unit :=
  Act.tryCatch
    (do
      let w ← Act.get
      match w.fm.filesById[fileId]? with
      | none => Act.throw ⟨.outOfRange, "map::at"⟩
      | some fobj => do
          let info ← load fobj
          inotify_rm_watch info.watchDescriptor
          Act.modify fun w =>
            { w with fm :=
              { w.fm with
                filesById := w.fm.filesById.erase fileId
                filesByWatchDesc := w.fm.filesByWatchDesc.erase fileId } }
          Act.throwIf (env.fails .remove)
            ⟨.filesystemError, env.errorMessage⟩
          Act.modify fun w => w.removeFile .other info.path)
    fun _ => pure ()

/-- The `where f.id = ` clause of one file. -/
def whereId (fileId : ℤ) (id : ℤ) (_row : FileRow) : Bool :=
  id = fileId

/-- The `'i'` branch. -/
def processInsert (env : Env) (fileId : ℤ) : Prog Unit := do
  ignoreFSNotifications
  loadFiles env (whereId fileId)
  watchFile env (← filesByIdIndex fileId)

/-- The `'u'` branch. -/
def processUpdate (env : Env) (fileId : ℤ) : Prog Unit := do
  let w ← Act.get
  if w.fm.filesById.contains fileId then
    ignoreFSNotifications
    loadFiles env (whereId fileId)

def processDBNotification (env : Env) (message : String) : Prog Unit := do
  let w ← Act.get
  match parseNotification w.fm.wspaceId message with
  | none => pure ()
  | some (type, fileId) =>
      Act.tryCatch
        (if type = 'd' then processDelete env fileId
        else if type = 'i' then processInsert env fileId
        else processUpdate env fileId)
        fun _ => pure ()

/-- `handleDBNotifications` on the messages that have arrived. -/
def handleDBNotifications (env : Env) (messages : List (Env × String)) :
    Prog Unit := do
  ignoreFSNotifications
  Act.throwIf (env.fails .consumeInput)
    ⟨.dbException, "consume input returned error"⟩
  let w ← Act.get
  Act.forEach messages fun entry =>
    if w.fm.ignoreDBNotifications then pure ()
    else processDBNotification entry.1 entry.2

end Rc2Compute.Files
