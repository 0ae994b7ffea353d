import Rc2Compute.Files.World

/-!
# DBFileSource

The cached files of a workspace and the SQL behind them: loading rows into
the cache and the working directory, and inserting, updating and deleting the
row of a file.  `DBTransaction` is the scope `withTransaction`: its
constructor begins, its destructor rolls back whatever is still open.
-/

namespace Rc2Compute.Files

/-! ## Statements and transactions -/

/-- Run one statement; the result is `commandOK()`.  Outside a transaction it
commits at once, inside one a failure aborts the transaction. -/
def executeQuery (env : Env) (call : Call)
    (statement : Tables → Option Tables) : Prog Bool := fun w =>
  match w.db.transaction with
  | none =>
      match if env.fails call then none else statement w.db.committed with
      | some tables =>
          (.returned true, { w with db := { w.db with committed := tables } })
      | none => (.returned false, w)
  | some none => (.returned false, w)
  | some (some working) =>
      let working := if env.fails call then none else statement working
      (.returned working.isSome,
        { w with db := { w.db with transaction := some working } })

/-- `longFromQuery`: the number in the first row and column. -/
def longFromQuery (env : Env) (call : Call) (value : ℤ) : Prog ℤ :=
  if env.fails call then
    Act.throw ⟨.dbException, env.errorMessage⟩
  else
    pure value

def beginTransaction (env : Env) : Prog Unit :=
  Act.modify fun w =>
    if env.fails .begin then w
    else { w with db :=
      { w.db with transaction := some (some w.db.committed) } }

/-- `DBTransaction::commit`.  Committing an aborted transaction rolls it back
and reports success. -/
def commitTransaction (env : Env) : Prog Bool := fun w =>
  if env.fails .commit then
    (.returned false, w)
  else
    match w.db.transaction with
    | some (some working) =>
        (.returned true, { w with db := ⟨working, none⟩ })
    | _ => (.returned true, { w with db := ⟨w.db.committed, none⟩ })

/-- `DBTransaction::~DBTransaction`. -/
def rollback (w : World) : World :=
  { w with db := { w.db with transaction := none } }

def withTransaction {α : Type} (env : Env) (body : Prog α) : Prog α :=
  Act.ensuring
    (do
      beginTransaction env
      body)
    rollback

/-- The `$1::bytea` parameter of a statement: its length passes through
`int`.  What a negative length does is the driver's and the server's affair;
without a value the statement fails. -/
def byteaParam (env : Env) (data : Bytes) : Option Bytes :=
  let size := toInt32 data.length
  if size < 0 then env.negativeLength data else some (data.take size.toNat)

/-- `PGDBConnection::escapeLiteral`: the text whose literal enters the
statement.  The driver returns a null pointer for a text it cannot quote, one
that is invalid in the encoding of the connection, and the pointer is assigned
to a string unchecked. -/
def escapeLiteral (env : Env) (inString : String) : Prog String :=
  if env.fails .escapeLiteral then Act.undefined else pure inString

/-! ## Files on disk -/

/-- The path a message shows for a file of the working directory. -/
def filePath (w : World) (path : String) : String :=
  w.fm.workingDir ++ "/" ++ path

/-- `stat(...) == -1`. -/
def statFails (env : Env) (path : String) : Prog Bool := do
  let w ← Act.get
  pure (env.fails .stat || !w.disk.contains path)

/-- `ReadFileBlob`.  For a file that cannot be opened the size is -1 and the
allocation of the buffer throws.  Whether the reading of an opened file gets
to its end is not checked. -/
def readFileBlob (env : Env) (path : String) : Prog Bytes := do
  let w ← Act.get
  match if env.fails .readFile then none else w.disk[path]? with
  | some data => pure (env.buffer data)
  | none => Act.throw ⟨.badAlloc, "std::bad_array_new_length"⟩

/-! ## Loading -/

/-- One row of the join of `rcfile` and `rcfiledata`. -/
structure FetchedFile where
  id : ℤ
  version : ℤ
  name : String
  lastmod : ℤ
  bindata : Bytes
deriving DecidableEq, Repr

/-- The rows of the join that satisfy the condition on `rcfile`. -/
def Tables.selectFiles (t : Tables) (whereClause : ℤ → FileRow → Bool) :
    List FetchedFile :=
  t.rcfile.toList.filterMap fun (id, row) =>
    if whereClause id row then
      t.rcfiledata[id]?.map fun data =>
        ⟨id, row.version, row.name, row.lastmodified, data⟩
    else
      none

/-- The three `::int4` casts of the query go through. -/
def FetchedFile.fits (row : FetchedFile) : Bool :=
  fitsInt4 row.id && fitsInt4 row.version && fitsInt4 row.lastmod

/-- A fetched row enters the cache. -/
def cacheFile (env : Env) (row : FetchedFile) : Prog Unit := do
  let pid := toUInt32 row.id
  let pver := toUInt32 row.version
  let w ← Act.get
  match w.fm.filesById[pid]? with
  | some filePtr =>
      store filePtr fun info =>
        { info with version := pver, name := row.name }
  | none => do
      let filePtr ← newDBFileInfo env pid pver row.name
      Act.modify fun w =>
        { w with fm :=
          { w.fm with filesById := w.fm.filesById.insert pid filePtr } }

/-- The body of the loop over the result of `loadFiles`.  The time `utime`
sets is left out. -/
def loadFile (env : Env) (row : FetchedFile) : Prog Unit := do
  cacheFile env row
  Act.modify fun w =>
    if env.fails .writeFile then w
    else w.writeFile .loadFiles row.name row.bindata

/-- `loadFiles`.  When the query fails, only a message is logged. -/
def loadFiles (env : Env) (whereClause : ℤ → FileRow → Bool) :
    Prog Unit := do
  let w ← Act.get
  let rows := w.db.committed.selectFiles whereClause
  if env.fails .selectFiles || !rows.all FetchedFile.fits then
    pure ()
  else
    Act.forEach rows (loadFile env)

/-! ## Changing rows -/

/-- The statements of `insertDBFile`. -/
def insertRows (env : Env) (fname : String) (fileId : ℤ) : Prog Unit := do
  let w ← Act.get
  Act.throwIf (← statFails env fname)
    ⟨.runtimeError, "stat failed for insert " ++ filePath w fname⟩
  let data ← readFileBlob env fname
  let escapedName ← escapeLiteral env fname
  let row : FileRow :=
    ⟨1, w.fm.wspaceId, escapedName, data.length, env.mtime⟩
  let res1 ← executeQuery env .insertFile fun t =>
    if t.rcfile.contains fileId then none
    else some { t with rcfile := t.rcfile.insert fileId row }
  Act.throwIf (!res1) (FormattedException
    ("failed to insert file " ++ fname ++ ": " ++ env.errorMessage))
  let res2 ← executeQuery env .insertFileData fun t =>
    if t.rcfiledata.contains fileId then none
    else (byteaParam env data).map fun bindata =>
      { t with rcfiledata := t.rcfiledata.insert fileId bindata }
  Act.throwIf (!res2) (FormattedException
    ("failed to insert file " ++ fname ++ ": " ++ env.errorMessage))
  let commitRes ← commitTransaction env
  Act.throwIf (!commitRes) (FormattedException
    ("failed to commit file inserts " ++ fname ++ ": " ++
      env.errorMessage))

def insertDBFile (env : Env) (fname : String) : Prog ℤ :=
  withTransaction env do
    let fileId ← longFromQuery env .nextval env.newId
    let fobj ← newDBFileInfo env fileId 1 fname
    insertRows env fname fileId
    Act.modify fun w =>
      { w with fm :=
        { w.fm with filesById := w.fm.filesById.insertIfNew fileId fobj } }
    pure fileId

/-- The statements of `updateDBFile`. -/
def updateRows (env : Env) (id newVersion : ℤ) (data : Bytes) :
    Prog Unit := do
  let res1 ← executeQuery env .updateFile fun t =>
    some
      { t with rcfile := t.rcfile.modify id fun row =>
          { row with
            version := newVersion
            lastmodified := env.mtime
            filesize := data.length } }
  Act.throwIf (!res1) (FormattedException
    ("failed to update file " ++ toString id ++ ": " ++ env.errorMessage))
  let res2 ← executeQuery env .updateFileData fun t =>
    (byteaParam env data).map fun bindata =>
      { t with rcfiledata := t.rcfiledata.modify id fun _ => bindata }
  Act.throwIf (!res2) (FormattedException
    ("failed to update file " ++ toString id ++ ": " ++ env.errorMessage))
  let commitRes ← commitTransaction env
  Act.throwIf (!commitRes) (FormattedException
    ("failed to commit file updates " ++ toString id ++ ": " ++
      env.errorMessage))

def updateDBFile (env : Env) (fobj : DBFileInfoPtr) : Prog Unit := do
  let info ← load fobj
  let newVersion := toInt32 (info.version + 1)
  Act.throwIf (← statFails env info.path)
    ⟨.runtimeError, "stat failed for update " ++ info.name⟩
  let data ← readFileBlob env info.path
  withTransaction env do
    updateRows env info.id newVersion data
    store fobj fun info => { info with version := newVersion }

/-- The statement of `removeDBFile`. -/
def deleteRow (env : Env) (id : ℤ) : Prog Bool :=
  executeQuery env .deleteFile fun t =>
    some { t with rcfile := t.rcfile.erase id }

def removeDBFile (env : Env) (fobj : DBFileInfoPtr) : Prog Unit := do
  let info ← load fobj
  let res ← deleteRow env info.id
  if res then
    Act.modify fun w =>
      { w with fm :=
        { w.fm with filesById := w.fm.filesById.erase info.id } }

/-! ## The workspace image -/

/-- The file R keeps its workspace in. -/
def rdataFile : String := ".RData"

/-- The tables the next statement reads. -/
def Database.visible (db : Database) : Tables :=
  match db.transaction with
  | some (some working) => working
  | _ => db.committed

/-- `loadRData`.  A failed query, an absent row and an empty one all load
nothing. -/
def loadRData (env : Env) : Prog Bool := do
  let w ← Act.get
  match
    if env.fails .selectWorkspaceData then none
    else w.db.committed.rcworkspacedata[w.fm.wspaceId]? with
  | some data =>
      if data.length > 0 then do
        Act.modify fun w =>
          if env.fails .writeFile then w
          else w.writeFile .other rdataFile data
        pure true
      else
        pure false
  | none => pure false

/-- `lock table rcworkspacedata`, which is an error outside a transaction. -/
def lockTable (env : Env) : Prog Bool := fun w =>
  match w.db.transaction with
  | none => (.returned false, w)
  | some _ => executeQuery env .lockTable some w

/-- The statements of `saveRData` under the lock.  A row is inserted when the
update has affected none. -/
def saveRows (env : Env) (data : Bytes) : Prog Unit := do
  let w ← Act.get
  let wspaceId := w.fm.wspaceId
  let rowsAffected :=
    if w.db.visible.rcworkspacedata.contains wspaceId then 1 else 0
  let res ← executeQuery env .updateWorkspaceData fun t =>
    (byteaParam env data).map fun bindata =>
      { t with rcworkspacedata :=
        t.rcworkspacedata.modify wspaceId fun _ => bindata }
  Act.throwIf (!res) (FormattedException
    ("failed to update rcworkspacedata " ++ toString wspaceId ++ ": " ++
      env.errorMessage))
  if rowsAffected < 1 then do
    let iRes ← executeQuery env .insertWorkspaceData fun t =>
      if t.rcworkspacedata.contains wspaceId then none
      else (byteaParam env data).map fun bindata =>
        { t with rcworkspacedata := t.rcworkspacedata.insert wspaceId bindata }
    Act.throwIf (!iRes) (FormattedException
      ("failed to insert rcworkspacedata " ++ toString wspaceId ++ ":" ++
        env.errorMessage))
  let commitRes ← commitTransaction env
  Act.throwIf (!commitRes) (FormattedException "failed to commit save rdata")

/-- `saveRData`.  Without a file, and when the table cannot be locked, it
returns without a word. -/
def saveRData (env : Env) : Prog Unit := do
  let w ← Act.get
  Act.throwIf (env.fails .fileExists) ⟨.filesystemError, env.errorMessage⟩
  if w.disk.contains rdataFile then do
    let data ← readFileBlob env rdataFile
    withTransaction env do
      let locked ← lockTable env
      if locked then
        saveRows env data

end Rc2Compute.Files
