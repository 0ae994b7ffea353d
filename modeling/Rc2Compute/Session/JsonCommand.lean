import Rc2Compute.Support.Json

/-!
# JsonCommand

A command of the client: its document, its type, and the fields the handlers
read.  Reading a field of the wrong type throws.
-/

namespace Rc2Compute.Session

inductive CommandType where
  | Unknown
  | Open
  | Close
  | ClearFileChanges
  | ExecScript
  | ExecFile
  | Help
  | ListVariables
  | GetVariable
  | ToggleWatch
  | SaveData
deriving DecidableEq, Repr

structure JsonCommand where
  cmd : Json
  type : CommandType
deriving Repr

/-- The type of a command by its name.  For any other name the constructor
leaves `_type` as it finds it. -/
def commandType (uninitialised : CommandType) (cmdStr : String) :
    CommandType :=
  if cmdStr = "open" then .Open
  else if cmdStr = "close" then .Close
  else if cmdStr = "saveEnv" then .SaveData
  else if cmdStr = "clearFileChanges" then .ClearFileChanges
  else if cmdStr = "execScript" then .ExecScript
  else if cmdStr = "execFile" then .ExecFile
  else if cmdStr = "help" then .Help
  else if cmdStr = "listVariables" then .ListVariables
  else if cmdStr = "getVariable" then .GetVariable
  else if cmdStr = "toggleVariableWatch" then .ToggleWatch
  else uninitialised

namespace JsonCommand

/-- The constructor. -/
def ofJson (uninitialised : CommandType) (cmd : Json) :
    Except CxxException JsonCommand := do
  let msg ← cmd.index "msg"
  let cmdStr ← msg.getString
  pure ⟨cmd, commandType uninitialised cmdStr⟩

variable (command : JsonCommand)

def argument : Except CxxException String :=
  command.cmd.value Json.getString "argument" ""

def startTimeStr : Except CxxException String :=
  command.cmd.value Json.getString "startTime" ""

def watchVariables : Except CxxException Bool :=
  command.cmd.value Json.getBool "watchVariables" false

/-- `raw().value("queryId", 0)`. -/
def queryId : Except CxxException ℤ :=
  command.cmd.value Json.getInt "queryId" 0

/-- `raw().value("delta", false)`. -/
def delta : Except CxxException Bool :=
  command.cmd.value Json.getBool "delta" false

/-- `raw().value("watch", false)`. -/
def watch : Except CxxException Bool :=
  command.cmd.value Json.getBool "watch" false

/-- A command without client data has an empty object for it. -/
def clientData : Json :=
  (command.cmd.find? "clientData").getD (.object [])

/-- A missing field and null stand for the empty text. -/
def valueForKey (key : String) : Except CxxException String := do
  match ← command.cmd.index key with
  | .null => pure ""
  | v => v.getString

end JsonCommand

/-- The text a handler puts in the queue to have the changed variables
listed. -/
def listVariablesDelta : String :=
  "\x7b\"msg\":\"listVariables\", \"delta\":true\x7d"

/-- The library's parser.  It reads the one text the session itself writes. -/
structure JsonParser where
  parse : String → ParseOutcome
  parse_delta : parse listVariablesDelta =
    .parsed (.object [("msg", .string "listVariables"),
      ("delta", .boolean true)])

/-- A parser that knows some texts besides. -/
def JsonParser.ofTexts (texts : List (String × Json)) : JsonParser where
  parse json :=
    if json = listVariablesDelta then
      .parsed (.object [("msg", .string "listVariables"),
        ("delta", .boolean true)])
    else
      match texts.lookup json with
      | some doc => .parsed doc
      | none => .invalidArgument
  parse_delta := if_pos rfl

/-- The document of `listVariablesDelta`. -/
def deltaCommand : JsonCommand where
  cmd := .object [("msg", .string "listVariables"), ("delta", .boolean true)]
  type := .ListVariables

section deltaCommand

theorem ofJson_deltaCommand (uninitialised : CommandType) :
    JsonCommand.ofJson uninitialised deltaCommand.cmd = .ok deltaCommand :=
  rfl

@[simp] theorem queryId_deltaCommand : deltaCommand.queryId = .ok 0 := rfl

@[simp] theorem delta_deltaCommand : deltaCommand.delta = .ok true := rfl

end deltaCommand

end Rc2Compute.Session
