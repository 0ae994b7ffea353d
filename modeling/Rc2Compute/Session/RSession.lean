import Rc2Compute.Session.JsonCommand
import Rc2Compute.Support.CString
import Rc2Compute.Files.FileManager
import Mathlib.Tactic.Simps.Basic

/-!
# RSession

How a session answers commands: the handlers, the events they put in the
queue, and the clauses that catch what they throw.  R, the file system, the
database connection, the file manager and the variable watcher are services.
A call to one of them may write to the console, change what lies behind the
services, and return or throw anything.
-/

namespace Rc2Compute.Session

open Files (FileInfo)

variable {σ ν : Type}

/-! ## Messages and events -/

/-- Who wrote a text the client receives.  The message does not say. -/
inductive Origin where
  | console
  | session
deriving DecidableEq, Repr

/-- The messages to the client.  A field that may be missing is an option;
`ν` is what the variable watcher makes of R objects. -/
inductive Message (ν : Type) where
  | results (string : String) (isError : Bool) (queryId : Option ℤ)
      (origin : Origin)
  | error (errorCode : ℤ) (errorDetails : String) (queryId : Option ℤ)
  | execComplete (startTime : String) (queryId : Option ℤ)
      (clientData : Option Json) (expectShowOutput : Bool)
      (images : List ℤ) (imgBatch : ℤ)
  | showoutput (file : FileInfo)
  | variableupdate (vars : ν) (delta : Bool) (clientData : Option Json)
  | variablevalue (name : String) (value : ν) (startTime : String)
  | help (topic : String) (paths : List String)
  | openresponse (success : Bool) (errorMessage : Option String)

def kError_Execfile_InvalidInput : ℤ := 103
def kError_ExecFile_MarkdownFailed : ℤ := 104
def kErrfor_UnknownFile : ℤ := 105

/-- The events a handler puts in the queue: an acknowledgement with the
command, query id and file it is for, and the text of a command. -/
inductive Deferred where
  | execComplete (command : JsonCommand) (queryId : ℤ) (finfo : FileInfo)
  | command (json : String)
deriving Repr

/-! ## Services -/

/-- The calls that can fail. -/
inductive Call where
  | parseEvalQNT (rcmd : String)
  | parseEvalNT (rcmd : String)
  | parseEval (rcmd : String)
  | parseEvalR (script : String)
  | helpResult
  | captureEnvironment
  | toJson
  | toJsonOf (varName : String)
  | jsonDelta
  | addSummary
  | makeDirectoryPath (path : String)
  | temporaryDirectory (path : String)
  | createDirectories (path : String)
  | pathExists (path : String)
  | copyFile (source dest : String)
  | texi2pdf (texPath : String)
  | connect (connectString : String)
  | initFileManager (workDir : String) (wspaceId sessionRecId : ℤ)
  | loadRData
  | saveRData
  | findOrAddFile (fname : String)
  | cleanupImageWatch
deriving DecidableEq, Repr

/-- The calls that have R evaluate something, and so may write to the
console.  The others are to the file system, the database connection and the
file manager. -/
def Call.runsR : Call → Bool
  | .parseEvalQNT _ | .parseEvalNT _ | .parseEval _ | .parseEvalR _
  | .helpResult | .captureEnvironment | .toJson | .toJsonOf _ | .jsonDelta
  | .addSummary => true
  | _ => false

/-- `RInside::ParseEvalResult`. -/
inductive ParseEvalResult where
  | PE_SUCCESS
  | PE_INCOMPLETE
  | PE_ERROR
  | PE_NULL
  | PE_EOF
  | PE_EXEC_ERROR
deriving DecidableEq, Repr

/-- A text R writes to the console, and `R_Visible` when it does. -/
structure ConsoleWrite where
  text : String
  isError : Bool
  visible : Bool
deriving DecidableEq, Repr

/-- What the services answer while one command, or one event, is handled:
which calls do not return, what they write to the console and do behind the
services, and the values of the calls that return. -/
structure Services (σ ν : Type) where
  /-- The exception a call ends with.  One of type `never` stands for a call
  that diverges or is undefined, as listing an environment may be. -/
  throws : Call → Option CxxException
  output : Call → List ConsoleWrite
  output_eq_nil : ∀ c, c.runsR = false → output c = []
  effect : Call → σ → σ
  /-- The result of a call that is a test. -/
  holds : Call → σ → Bool
  parseResult : ParseEvalResult
  helpPaths : List String
  generateUUID : String
  /-- Whether the watcher asks R for a summary during the call. -/
  summarises : Call → Bool
  toJson : σ → ν
  toJsonOf : σ → String → ν
  jsonDelta : σ → ν
  /-- `file_size` with an error code, compared with 0. -/
  sizePositive : String → σ → Bool
  /-- What a copy of the session sends, on the same socket, that comes back
  from an `execve` of `texi2pdf` that has failed. -/
  copySends : String → σ → List (Message ν)
  filePathForId : σ → ℤ → Option String
  fileInfoForId : σ → ℤ → Option FileInfo
  foundFile : σ → String → FileInfo
  resetWatch : σ → σ
  checkWatch : σ → List ℤ × ℤ
  /-- What `JsonCommand` finds in `_type`. -/
  uninitialised : CommandType

/-- Services whose calls return and do nothing, with tests that hold. -/
def Services.succeeding (value : ν) : Services σ ν where
  throws _ := none
  output _ := []
  output_eq_nil _ _ := rfl
  effect _ := id
  holds _ _ := true
  parseResult := .PE_SUCCESS
  helpPaths := []
  generateUUID := "uuid"
  summarises _ := false
  toJson _ := value
  toJsonOf _ _ := value
  jsonDelta _ := value
  sizePositive _ _ := true
  copySends _ _ := []
  filePathForId _ _ := none
  fileInfoForId _ _ := none
  foundFile _ fname := ⟨1, 1, fname⟩
  resetWatch := id
  checkWatch _ := ([], 0)
  uninitialised := .Unknown

/-! ## The session -/

/-- The fields of `RSession::Impl`, what has been sent and put in the queue so
far, and what lies behind the services. -/
structure RSession (σ ν : Type) where
  isOpen : Bool
  currentQueryId : ℤ
  ignoreOutput : Bool
  captureStdOut : Bool
  sourceInProgress : Bool
  watchVariables : Bool
  properlyClosed : Bool
  loopBreak : Bool
  wspaceId : ℤ
  sessionRecId : ℤ
  tmpDir : String
  consoleOutBuffer : String
  stdOutCapture : String
  sent : List (Message ν)
  /-- What copies of the session have sent. -/
  copySent : List (Message ν)
  deferred : List Deferred
  outer : σ

namespace RSession

@[simps] def ignoring (b : Bool) (s : RSession σ ν) : RSession σ ν :=
  { s with ignoreOutput := b }

@[simps] def capturing (b : Bool) (s : RSession σ ν) : RSession σ ν :=
  { s with captureStdOut := b }

@[simps] def sourcing (b : Bool) (s : RSession σ ν) : RSession σ ν :=
  { s with sourceInProgress := b }

@[simps] def sending (json : Message ν) (s : RSession σ ν) : RSession σ ν :=
  { s with sent := s.sent ++ [json] }

@[simps] def copying (messages : List (Message ν)) (s : RSession σ ν) :
    RSession σ ν :=
  { s with copySent := s.copySent ++ messages }

@[simps] def scheduling (event : Deferred) (s : RSession σ ν) :
    RSession σ ν :=
  { s with deferred := s.deferred ++ [event] }

@[simps] def moving (f : σ → σ) (s : RSession σ ν) : RSession σ ν :=
  { s with outer := f s.outer }

@[simps] def querying (queryId : ℤ) (s : RSession σ ν) : RSession σ ν :=
  { s with currentQueryId := queryId }

@[simps] def movingTo (path : String) (s : RSession σ ν) : RSession σ ν :=
  { s with tmpDir := path }

@[simps] def opened (s : RSession σ ν) : RSession σ ν :=
  { s with isOpen := true }

end RSession

/-- A session that has just been constructed. -/
def RSession.fresh (outer : σ) : RSession σ ν where
  isOpen := false
  currentQueryId := 0
  ignoreOutput := false
  captureStdOut := false
  sourceInProgress := false
  watchVariables := false
  properlyClosed := false
  loopBreak := false
  wspaceId := 0
  sessionRecId := 0
  tmpDir := ""
  consoleOutBuffer := ""
  stdOutCapture := ""
  sent := []
  copySent := []
  deferred := []
  outer := outer

/-- A handler: an action on the session that may throw. -/
abbrev Handler (σ ν : Type) := Act (RSession σ ν) CxxException

/-- A value, or the exception reading it throws. -/
def read {α : Type} : Except CxxException α → Handler σ ν α
  | .ok a => pure a
  | .error e => Act.throw e

/-- `catch (std::runtime_error &)`. -/
def catchRuntimeError {α : Type} (x : Handler σ ν α)
    (handler : CxxException → Handler σ ν α) : Handler σ ν α :=
  Act.tryCatch x fun e =>
    if e.type.isRuntimeError then handler e else Act.throw e

/-! ## Texts -/

/-- `escape_quotes`. -/
def escape_quotes (before : String) : String :=
  String.ofList (before.toList.flatMap fun c =>
    if c = '"' ∨ c = '\\' then ['\\', c] else [c])

/-- The marker before the value `source` prints. -/
def valueMarker : List Char := "\n$value\n".toList

/-- `regex_replace` with `\n\$value\n.*$`: the dot matches line ends too, so
the first match is the last. -/
def dropValue : List Char → List Char
  | [] => []
  | c :: rest =>
      if valueMarker.isPrefixOf (c :: rest) then ['\n']
      else c :: dropValue rest

/-- `path /= component`. -/
def append (path component : String) : String :=
  if component.toList.head? = some '/' ∨ path.toList.getLast? = some '/' ∨
      path = "" then path ++ component
  else path ++ "/" ++ component

/-- `path.filename()`. -/
def filename (path : String) : List Char :=
  if path.toList.getLast? = some '/' then ['.']
  else (path.toList.reverse.takeWhile (· ≠ '/')).reverse

/-- `path.extension()`. -/
def extension (path : String) : String :=
  let name := filename path
  if name = ['.'] ∨ name = ['.', '.'] ∨ '.' ∉ name then ""
  else String.ofList ('.' :: (name.reverse.takeWhile (· ≠ '.')).reverse)

/-- `path.stem()`. -/
def stem (path : String) : String :=
  String.ofList
    ((filename path).take ((filename path).length - (extension path).length))

/-- `path.parent_path()`. -/
def parentPath (path : String) : String :=
  String.ofList ((path.toList.reverse.dropWhile (· ≠ '/')).drop 1).reverse

/-- The URI of the database. -/
def connectString (dbuser dbhost dbname dbpass : String) : String :=
  "postgresql://" ++ dbuser ++ "@" ++ dbhost ++ "/" ++ dbname ++
    "?application_name=rsession&sslmode=disable" ++
    (if dbpass.length > 0 then "&password=" ++ dbpass else "")

/-! ## Sending -/

/-- `sendJsonToClientSource`. -/
def sendJsonToClientSource (json : Message ν) : Handler σ ν Unit :=
  Act.modify (RSession.sending json)

/-- `queryId` fields are left out for numbers that are not positive. -/
def queryIdField (queryId : ℤ) : Option ℤ :=
  if queryId > 0 then some queryId else none

/-- `clientData` fields are left out for null. -/
def clientDataField : Json → Option Json
  | .null => none
  | data => some data

/-- `formatErrorAsJson`. -/
def formatErrorAsJson (errorCode : ℤ) (details : String) (queryId : ℤ) :
    Message ν :=
  .error errorCode details (queryIdField queryId)

/-- `formatStringAsJson` of a text that is not empty. -/
def formatStringAsJson (s : RSession σ ν) (input : String) (isError : Bool)
    (origin : Origin) : Message ν :=
  let output :=
    if s.sourceInProgress then String.ofList (dropValue input.toList)
    else input
  .results output isError (queryIdField s.currentQueryId) origin

/-- `sendTextToClient`. -/
def sendTextToClient (text : String) (isError : Bool) (origin : Origin) :
    Handler σ ν Unit := do
  let s ← Act.get
  if text.length < 1 then
    pure ()
  else
    sendJsonToClientSource (formatStringAsJson s text isError origin)

/-- `sendOutputBufferToClient`. -/
def sendOutputBufferToClient (isError : Bool) : Handler σ ν Unit := do
  let s ← Act.get
  if s.consoleOutBuffer.length > 0 then do
    sendTextToClient s.consoleOutBuffer isError .console
    Act.modify fun s => { s with consoleOutBuffer := "" }
  else
    pure ()

/-- `consoleCallback`. -/
def consoleCallback (write : ConsoleWrite) : Handler σ ν Unit := do
  let s ← Act.get
  if s.captureStdOut then
    Act.modify fun s =>
      { s with stdOutCapture := s.stdOutCapture ++ write.text }
  else if s.ignoreOutput then
    pure ()
  else if write.isError then
    sendTextToClient write.text true .console
  else if write.visible || s.sourceInProgress then
    Act.modify fun s =>
      { s with consoleOutBuffer := s.consoleOutBuffer ++ write.text }
  else
    pure ()

section Handlers

variable (svc : Services σ ν)

/-! ## Calling services -/

/-- A call: R writes, the world changes, and the call returns or ends with
what it throws. -/
def call (c : Call) : Handler σ ν Unit := do
  Act.forEach (svc.output c) consoleCallback
  Act.modify (RSession.moving (svc.effect c))
  match svc.throws c with
  | some e => Act.throw e
  | none => pure ()

/-- A call under an `if`. -/
def callIf (condition : Bool) (c : Call) : Handler σ ν Unit :=
  if condition then call svc c else pure ()

/-- A call that is a test. -/
def test (c : Call) : Handler σ ν Bool := do
  let s ← Act.get
  call svc c
  pure (svc.holds c s.outer)

/-- Output is ignored while `body` runs, as under a `NotifySuspender` or a
`BooleanWatcher`. -/
def ignoringOutput {α : Type} (body : Handler σ ν α) : Handler σ ν α :=
  Act.ensuring
    (do
      Act.modify (RSession.ignoring true)
      body)
    (RSession.ignoring false)

/-- A call to the variable watcher, which has R summarise objects.  The call
may still fail when the summaries are there. -/
def watcherCall (c : Call) : Handler σ ν Unit := do
  if svc.summarises c then ignoringOutput (call svc .addSummary)
  call svc c

/-- R saves the images it has drawn. -/
def pngoff : Call := .parseEvalQNT "rc2.pngoff()"

/-- `flushOutputBuffer`. -/
def flushOutputBuffer : Handler σ ν Unit := do
  Act.modify (RSession.ignoring true)
  call svc pngoff
  Act.modify (RSession.ignoring false)
  sendOutputBufferToClient false

/-! ## The queue -/

def schedule (event : Deferred) : Handler σ ν Unit :=
  Act.modify (RSession.scheduling event)

/-- A `FileInfo` without a file. -/
def noFile : FileInfo := ⟨0, 0, ""⟩

/-- Every caller passes the current query id. -/
def scheduleExecCompleteAcknowledgmenet (command : JsonCommand)
    (info : FileInfo) : Handler σ ν Unit := do
  let s ← Act.get
  schedule (.execComplete command s.currentQueryId info)

/-- `scheduleDelayedCommand` for the variables that have changed. -/
def scheduleDelayedCommand : Handler σ ν Unit :=
  schedule (.command listVariablesDelta)

/-- The path of a new directory. -/
def temporaryPath : String :=
  "/tmp/" ++ svc.generateUUID

/-! ## Opening and closing -/

/-- The commands that prepare R, run with output ignored. -/
def setupCommands : List String :=
  ["library(rc2)", "library(rmarkdown)", "library(tools)", "rm(argv)",
    "options(device = \"rc2.pngdev\", bitmapType = \"cairo\")"]

def loadImage : Call := .parseEvalQNT "load(\".RData\")"

def saveImage : Call := .parseEvalQNT "save.image()"

/-- The R command that moves to the working directory. -/
def setDirectory (workDir : String) : Call :=
  .parseEvalQNT ("setwd(\"" ++ escape_quotes workDir ++ "\")")

/-- The part of `handleOpenCommand` that runs R. -/
def setupR (workDir : String) (haveRData : Bool) : Handler σ ν Unit := do
  call svc (setDirectory workDir)
  Act.modify (RSession.ignoring true)
  Act.forEach setupCommands fun rcmd => call svc (.parseEvalQNT rcmd)
  callIf svc haveRData loadImage
  Act.modify (RSession.ignoring false)

def directoryError : CxxException where
  type := .runtimeError
  what := "failed to create working directory"

/-- The `try` of `handleOpenCommand` from the working directory on. -/
def openWorkspace (connectString : String) : Handler σ ν Unit := do
  let s ← Act.get
  let workDir := temporaryPath svc
  let made ← test svc (.makeDirectoryPath workDir)
  Act.throwIf (!made) directoryError
  call svc (.temporaryDirectory workDir)
  Act.modify (RSession.movingTo workDir)
  call svc (.connect connectString)
  call svc (.initFileManager workDir s.wspaceId s.sessionRecId)
  let haveRData ← test svc .loadRData
  setupR svc workDir haveRData
  sendJsonToClientSource (.openresponse true none)
  Act.modify RSession.opened

/-- The body of the `try` of `handleOpenCommand`. -/
def openSession (cmd : JsonCommand) : Handler σ ν Unit := do
  let sessionRecId ← read (cmd.cmd.index "sessionRecId" >>= Json.getInt)
  Act.modify fun s => { s with sessionRecId := sessionRecId }
  let dbhost ← read (cmd.valueForKey "dbhost")
  let dbuser ← read (cmd.valueForKey "dbuser")
  let dbname ← read (cmd.valueForKey "dbname")
  let dbpass ← read (cmd.valueForKey "dbpass")
  openWorkspace svc (connectString dbuser dbhost dbname dbpass)

def handleOpenCommand (cmd : JsonCommand) : Handler σ ν Unit := do
  let s ← Act.get
  if s.isOpen then
    pure ()
  else do
    let wspaceId ← read (cmd.cmd.index "wspaceId" >>= Json.getInt)
    Act.modify fun s => { s with wspaceId := wspaceId }
    catchRuntimeError (openSession svc cmd) fun err =>
      sendJsonToClientSource (.openresponse false (some err.what))

def handleSaveEnvCommand : Handler σ ν Unit := do
  call svc saveImage
  call svc .saveRData

def handleCloseCommand : Handler σ ν Unit := do
  let s ← Act.get
  if s.properlyClosed then
    pure ()
  else do
    Act.modify fun s => { s with properlyClosed := true }
    handleSaveEnvCommand svc
    Act.modify fun s => { s with loopBreak := true }

/-! ## Scripts, variables and help -/

def incompleteStatement : String := "Incomplete R statement\n"

/-- `_impl->watchVariables || command.watchVariables()`. -/
def sendsDelta (command : JsonCommand) (s : RSession σ ν) :
    Except CxxException Bool :=
  if s.watchVariables then .ok true else command.watchVariables

def handleExecuteScript (command : JsonCommand) : Handler σ ν Unit := do
  let argument ← read command.argument
  let sendDelta ← read (sendsDelta command (← Act.get))
  callIf svc sendDelta .captureEnvironment
  Act.modify (RSession.moving svc.resetWatch)
  call svc (.parseEvalR argument)
  flushOutputBuffer svc
  match svc.parseResult with
  | .PE_SUCCESS => do
      scheduleExecCompleteAcknowledgmenet command noFile
      if sendDelta then scheduleDelayedCommand
  | .PE_INCOMPLETE => sendTextToClient incompleteStatement true .session
  | _ => pure ()

def handleListVariablesCommand (delta : Bool) (command : JsonCommand) :
    Handler σ ν Unit := do
  watcherCall svc (if delta then .jsonDelta else .toJson)
  let s ← Act.get
  sendJsonToClientSource (.variableupdate
    (if delta then svc.jsonDelta s.outer else svc.toJson s.outer) delta
    (clientDataField command.clientData))

def handleGetVariableCommand (command : JsonCommand) : Handler σ ν Unit := do
  let name ← read command.argument
  watcherCall svc (.toJsonOf name)
  let s ← Act.get
  let startTime ← read command.startTimeStr
  sendJsonToClientSource
    (.variablevalue name (svc.toJsonOf s.outer name) startTime)

/-- The R command that looks up a topic. -/
def helpTopic (topic : String) : Call :=
  .parseEval ("help(\"" ++ escape_quotes topic ++ "\")")

def handleHelpCommand (command : JsonCommand) : Handler σ ν Unit := do
  let topic ← read command.argument
  Act.modify (RSession.ignoring true)
  catchRuntimeError
    (do
      call svc (helpTopic topic)
      call svc .helpResult
      sendJsonToClientSource (.help topic svc.helpPaths))
    fun _ => pure ()
  Act.modify (RSession.ignoring false)

/-! ## Files -/

/-- The R command that renders a copy of an R Markdown file. -/
def renderFile (fileName tmp : String) : Call :=
  .parseEvalQNT ("setwd('" ++ tmp ++ "');render(\"" ++
    escape_quotes fileName ++ "\", output_format=html_document());")

/-- The R command after a file has been rendered. -/
def resetDirectory (path : String) : Call :=
  .parseEvalQNT ("setwd(\"" ++ path ++
    "\");options(dev=\"rc2.pngdev\", bitmapType=\"cairo\")")

/-- The R command before and after `Sweave`. -/
def changeDirectory (path : String) : Call :=
  .parseEvalNT ("setwd('" ++ escape_quotes path ++ "')")

def sweaveFile (filePath : String) : Call :=
  .parseEval ("Sweave('../" ++ escape_quotes filePath ++
    "', encoding='UTF-8')")

def sourceFile (fpath : String) : Call :=
  .parseEvalQNT ("source(file=\"" ++ escape_quotes fpath ++ "\", echo=TRUE)")

def htmlName (fileName : String) : String :=
  stem fileName ++ ".html"

/-- The part of `executeRMarkdown` that runs R; the result is whether R has
made an HTML file.  (`captureStdOut = ""` sets the flag once more.) -/
def renderMarkdown (fileName tmp htmlPath : String) : Handler σ ν Bool :=
  ignoringOutput do
    Act.modify (RSession.capturing true)
    call svc (renderFile fileName tmp)
    Act.modify (RSession.capturing false)
    flushOutputBuffer svc
    let tmpHtmlPath := append tmp (htmlName fileName)
    if ← test svc (.pathExists tmpHtmlPath) then
      call svc (.copyFile tmpHtmlPath htmlPath)
      pure true
    else
      pure false

/-- `fs::exists(path) && fs::file_size(path, ec) > 0`. -/
def generated (path : String) : Handler σ ν Bool := do
  if ← test svc (.pathExists path) then
    let s ← Act.get
    pure (svc.sizePositive path s.outer)
  else
    pure false

/-- `findOrAddFile`, and the file it reports. -/
def findOrAddFile (fname : String) : Handler σ ν FileInfo := do
  let s ← Act.get
  call svc (.findOrAddFile fname)
  pure (svc.foundFile s.outer fname)

/-- `executeRMarkdown` once R has run. -/
def reportMarkdown (fileName : String) (generatedHtml : Bool)
    (command : JsonCommand) : Handler σ ν Unit := do
  let s ← Act.get
  call svc (resetDirectory s.tmpDir)
  let fileGenerated ← generated svc (append s.tmpDir (htmlName fileName))
  if generatedHtml && fileGenerated then
    ignoringOutput do
      let finfo ← findOrAddFile svc (htmlName fileName)
      scheduleExecCompleteAcknowledgmenet command finfo
  else do
    let s ← Act.get
    sendJsonToClientSource (formatErrorAsJson kError_ExecFile_MarkdownFailed
      ("failed to generate html:" ++ s.stdOutCapture) s.currentQueryId)

def executeRMarkdown (fileName : String) (command : JsonCommand) :
    Handler σ ν Unit := do
  let s ← Act.get
  let tmp := temporaryPath svc
  call svc (.temporaryDirectory tmp)
  call svc (.copyFile (append s.tmpDir fileName) (append tmp fileName))
  let generatedHtml ←
    renderMarkdown svc fileName tmp (append s.tmpDir (htmlName fileName))
  reportMarkdown svc fileName generatedHtml command

/-- `fork`, `execve` of `texi2pdf` in the child, and `waitpid`, whose status is
not looked at.  A child whose `execve` fails does not exit: as a copy of the
session it finishes the command and goes on in the loop, and the session waits
for it, for ever if it does not end. -/
def forkTexi2pdf (texPath : String) : Handler σ ν Unit := do
  let s ← Act.get
  Act.modify (RSession.copying (svc.copySends texPath s.outer))
  call svc (.texi2pdf texPath)

/-- What `executeSweave` does behind a `.tex` file.  (The log file is copied
to `.log`: the `=` in `logPath /= baseName = ".log"` is an assignment.) -/
def collectPdf (srcPath scratchPath baseName : String) :
    Handler σ ν FileInfo := do
  let s ← Act.get
  Act.modify (RSession.ignoring true)
  forkTexi2pdf svc (append scratchPath (baseName ++ ".tex"))
  Act.modify (RSession.ignoring false)
  let basePdfName := baseName ++ ".pdf"
  let genPdfPath := append scratchPath basePdfName
  let errorPath := append scratchPath (baseName ++ ".log")
  if ← generated svc genPdfPath then do
    call svc (.copyFile genPdfPath (append s.tmpDir basePdfName))
    findOrAddFile svc basePdfName
  else if ← test svc (.pathExists errorPath) then do
    call svc (.copyFile errorPath (append (parentPath srcPath) ".log"))
    pure noFile
  else
    pure noFile

/-- The file made of what `Sweave` has left, if it has left anything. -/
def collectTex (srcPath scratchPath baseName : String) :
    Handler σ ν FileInfo := do
  if ← test svc (.pathExists (append scratchPath (baseName ++ ".tex"))) then
    collectPdf svc srcPath scratchPath baseName
  else
    pure noFile

/-- `executeSweave` once `Sweave` has returned. -/
def finishSweave (srcPath scratchPath baseName : String)
    (command : JsonCommand) : Handler σ ν Unit := do
  let finfo ← collectTex svc srcPath scratchPath baseName
  call svc (changeDirectory (parentPath scratchPath))
  Act.modify (RSession.ignoring false)
  flushOutputBuffer svc
  scheduleExecCompleteAcknowledgmenet command finfo

def executeSweave (filePath : String) (command : JsonCommand) :
    Handler σ ν Unit := do
  let s ← Act.get
  let srcPath := append s.tmpDir filePath
  let scratchPath := append s.tmpDir ".rc2sw"
  call svc (.createDirectories scratchPath)
  call svc (changeDirectory scratchPath)
  let returned ← catchRuntimeError
    (do
      call svc (sweaveFile filePath)
      pure true)
    fun _ => do
      sendOutputBufferToClient true
      scheduleExecCompleteAcknowledgmenet command noFile
      pure false
  if returned then
    finishSweave svc srcPath scratchPath (stem srcPath) command

/-- The `.R` branch of `executeFile`. -/
def executeSource (fpath : String) (command : JsonCommand) :
    Handler σ ν Unit := do
  Act.modify (RSession.sourcing true)
  call svc (sourceFile fpath)
  flushOutputBuffer svc
  Act.modify (RSession.sourcing false)
  scheduleExecCompleteAcknowledgmenet command noFile
  let s ← Act.get
  if s.watchVariables then scheduleDelayedCommand

/-- The branches of `executeFile`. -/
def executeByExtension (fpath : String) (command : JsonCommand) :
    Handler σ ν Unit := do
  let s ← Act.get
  if extension fpath = ".Rmd" then
    executeRMarkdown svc fpath command
  else if extension fpath = ".Rnw" then
    executeSweave svc fpath command
  else if extension fpath = ".R" then
    executeSource svc fpath command
  else
    sendJsonToClientSource (formatErrorAsJson kError_Execfile_InvalidInput
      ("unsupported file type:" ++ fpath) s.currentQueryId)

/-- `executeFile` on a file the manager knows.  (`clearFileChanges` reads the
stored images and drops them.) -/
def executeKnownFile (fpath : String) (command : JsonCommand) :
    Handler σ ν Unit := do
  Act.modify (RSession.moving svc.resetWatch)
  let s ← Act.get
  callIf svc s.watchVariables .captureEnvironment
  executeByExtension svc fpath command

def executeFile (command : JsonCommand) : Handler σ ν Unit := do
  let argument ← read command.argument
  let fileId := atol argument.toList
  let s ← Act.get
  match svc.filePathForId s.outer fileId with
  | none =>
      sendJsonToClientSource (formatErrorAsJson kErrfor_UnknownFile
        ("unknown file:" ++ toString fileId) s.currentQueryId)
  | some fpath => executeKnownFile svc fpath command

/-! ## Commands -/

def handleToggleWatch (command : JsonCommand) : Handler σ ν Unit := do
  let watch ← read command.watch
  Act.modify fun s => { s with watchVariables := watch }
  if watch then handleListVariablesCommand svc false command

/-- The `switch` of `handleCommand`. -/
def dispatchCommand (command : JsonCommand) : Handler σ ν Unit :=
  match command.type with
  | .Close => handleCloseCommand svc
  | .ClearFileChanges =>
      Act.modify (RSession.moving svc.resetWatch)
  | .ExecScript => handleExecuteScript svc command
  | .ExecFile => executeFile svc command
  | .Help => handleHelpCommand svc command
  | .ListVariables => do
      let delta ← read command.delta
      handleListVariablesCommand svc delta command
  | .GetVariable => handleGetVariableCommand svc command
  | .ToggleWatch => handleToggleWatch svc command
  | .SaveData => handleSaveEnvCommand svc
  | .Open | .Unknown => pure ()

def handleCommand (command : JsonCommand) : Handler σ ν Unit := do
  let s ← Act.get
  if !s.isOpen then
    pure ()
  else do
    let queryId ← read command.queryId
    Act.modify (RSession.querying queryId)
    dispatchCommand svc command

/-- The end of the `try` of `handleJsonCommand`; the result is whether the
function returns there. -/
def handleTyped (command : JsonCommand) : Handler σ ν Bool := do
  let s ← Act.get
  if command.type = .Open then
    if s.isOpen then
      pure true
    else do
      handleOpenCommand svc command
      pure false
  else do
    handleCommand svc command
    pure false

/-- The message for an exception a command ends with.  The query id is the
`true` of the call, as an `int`. -/
def commandError (error : CxxException) : Message ν :=
  formatErrorAsJson kError_ExecFile_MarkdownFailed error.what 1

/-- `handleJsonCommand` from the document on. -/
def handleDocument (doc : Json) : Handler σ ν Unit := do
  let returned ← catchRuntimeError
    (do
      let command ← read (JsonCommand.ofJson svc.uninitialised doc)
      handleTyped svc command)
    fun error => do
      sendJsonToClientSource (commandError error)
      pure false
  if !returned then
    Act.modify (RSession.querying 0)

variable (parser : JsonParser)

/-- `handleJsonCommand`.  After an exception of the parser that is not a
`std::invalid_argument` the document stays null. -/
def handleJsonCommand (json : String) : Handler σ ν Unit :=
  if json.length < 1 then
    pure ()
  else
    match parser.parse json with
    | .invalidArgument => pure ()
    | .otherException => handleDocument svc .null
    | .parsed doc => handleDocument svc doc

/-! ## Callbacks -/

/-- `handleJsonStatic` on a complete message. -/
def handleJsonStatic (json : String) : Handler σ ν Unit :=
  Act.tryCatch (handleJsonCommand svc parser json) fun e =>
    if e.type.isStdException then pure () else Act.throw e

def handleDelayedCommand (json : String) : Handler σ ν Unit :=
  handleJsonCommand svc parser json

def acknowledgeExecComplete (command : JsonCommand) (queryId : ℤ)
    (expectShowOutput : Bool) : Handler σ ν (Message ν) := do
  call svc .cleanupImageWatch
  let startTime ← read command.startTimeStr
  let s ← Act.get
  let watch := svc.checkWatch s.outer
  pure (.execComplete startTime (queryIdField queryId)
    (clientDataField command.clientData) expectShowOutput watch.1 watch.2)

def handleExecComplete (command : JsonCommand) (queryId : ℤ)
    (finfo : FileInfo) : Handler σ ν Unit := do
  let gotFileInfo := finfo.id > 0
  let json ← acknowledgeExecComplete svc command queryId gotFileInfo
  sendJsonToClientSource json
  let s ← Act.get
  if gotFileInfo then
    sendJsonToClientSource
      (.showoutput ((svc.fileInfoForId s.outer finfo.id).getD finfo))

/-- One event of the queue. -/
def runDeferred : Deferred → Handler σ ν Unit
  | .execComplete command queryId finfo =>
      handleExecComplete svc command queryId finfo
  | .command json => handleDelayedCommand svc parser json

end Handlers

end Rc2Compute.Session
