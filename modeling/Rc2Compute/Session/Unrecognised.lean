import Rc2Compute.Session.Commands

/-!
# Unrecognised commands

What a command with a name that is none of the ten does.  The constructor of
`JsonCommand` leaves `_type` as it finds it, so the command is the one whose
number happens to lie in memory.
-/

namespace Rc2Compute.Session

variable {σ ν : Type}

/-! ## Types as numbers -/

/-- The number of an enumerator. -/
def CommandType.code : CommandType → ℤ
  | .Unknown => -1
  | .Open => 0
  | .Close => 1
  | .ClearFileChanges => 2
  | .ExecScript => 3
  | .ExecFile => 4
  | .Help => 5
  | .ListVariables => 6
  | .GetVariable => 7
  | .ToggleWatch => 8
  | .SaveData => 9

/-- What the session makes of a number.  A number that is no enumerator's
falls to the `default` of the `switch`, as `Unknown` does. -/
def CommandType.ofCode : ℤ → CommandType
  | 0 => .Open
  | 1 => .Close
  | 2 => .ClearFileChanges
  | 3 => .ExecScript
  | 4 => .ExecFile
  | 5 => .Help
  | 6 => .ListVariables
  | 7 => .GetVariable
  | 8 => .ToggleWatch
  | 9 => .SaveData
  | _ => .Unknown

@[simp] theorem CommandType.ofCode_code (type : CommandType) :
    ofCode type.code = type := by
  cases type <;> rfl

def commandNames : List String :=
  ["open", "close", "saveEnv", "clearFileChanges", "execScript", "execFile",
    "help", "listVariables", "getVariable", "toggleVariableWatch"]

/-- The number the constructor leaves in `_type`, which held `memory`. -/
def typeCode (memory : ℤ) (cmdStr : String) : ℤ :=
  if cmdStr = "open" then CommandType.Open.code
  else if cmdStr = "close" then CommandType.Close.code
  else if cmdStr = "saveEnv" then CommandType.SaveData.code
  else if cmdStr = "clearFileChanges" then CommandType.ClearFileChanges.code
  else if cmdStr = "execScript" then CommandType.ExecScript.code
  else if cmdStr = "execFile" then CommandType.ExecFile.code
  else if cmdStr = "help" then CommandType.Help.code
  else if cmdStr = "listVariables" then CommandType.ListVariables.code
  else if cmdStr = "getVariable" then CommandType.GetVariable.code
  else if cmdStr = "toggleVariableWatch" then CommandType.ToggleWatch.code
  else memory

theorem typeCode_of_unlisted {cmdStr : String} (h : cmdStr ∉ commandNames)
    (memory : ℤ) : typeCode memory cmdStr = memory := by
  simp only [commandNames, List.mem_cons, List.not_mem_nil, or_false,
    not_or] at h
  simp only [typeCode, h, if_false]

/-- The type of a command is what its number stands for. -/
theorem ofCode_typeCode (memory : ℤ) (cmdStr : String) :
    CommandType.ofCode (typeCode memory cmdStr) =
      commandType (.ofCode memory) cmdStr := by
  simp only [typeCode, commandType, apply_ite CommandType.ofCode,
    CommandType.ofCode_code]

/-- Services where `_type` holds `memory`. -/
def Services.finding (svc : Services σ ν) (memory : ℤ) : Services σ ν :=
  { svc with uninitialised := .ofCode memory }

/-! ## What a name stands for -/

/-- The handler for a name. -/
def namedHandler (svc : Services σ ν) (command : JsonCommand) :
    String → Option (Handler σ ν Unit)
  | "open" => some (handleOpenCommand svc command)
  | "close" => some (handleCloseCommand svc)
  | "saveEnv" => some (handleSaveEnvCommand svc)
  | "clearFileChanges" =>
      some (Act.modify (RSession.moving svc.resetWatch))
  | "execScript" => some (handleExecuteScript svc command)
  | "execFile" => some (executeFile svc command)
  | "help" => some (handleHelpCommand svc command)
  | "listVariables" => some do
      let delta ← read command.delta
      handleListVariablesCommand svc delta command
  | "getVariable" => some (handleGetVariableCommand svc command)
  | "toggleVariableWatch" => some (handleToggleWatch svc command)
  | _ => none

/-- A handler run under the query id of its command, in an open session. -/
def whenOpen (command : JsonCommand) (handler : Handler σ ν Unit) :
    Handler σ ν Unit := do
  let s ← Act.get
  if !s.isOpen then
    pure ()
  else do
    let queryId ← read command.queryId
    Act.modify (RSession.querying queryId)
    handler

/-- `open` runs when the session is not open, any other command when it is. -/
def gated (cmdStr : String) (command : JsonCommand)
    (handler : Handler σ ν Unit) : Handler σ ν Bool := do
  let s ← Act.get
  if cmdStr = "open" then
    if s.isOpen then
      pure true
    else do
      handler
      pure false
  else do
    whenOpen command handler
    pure false

/-- The session is as before, but that no query is current. -/
def Untouched (s s' : RSession σ ν) : Prop :=
  s' = s ∨ s' = s.querying 0

/-- `json` does nothing in any session, whatever the services would do. -/
def Inert (σ ν : Type) (parser : JsonParser) (memory : ℤ) (json : String) :
    Prop :=
  ∀ (svc : Services σ ν) (s : RSession σ ν),
    Act.wp (handleJsonCommand (svc.finding memory) parser json)
      (fun _ s' => Untouched s s') (fun _ s' => Untouched s s') s

/-- A command with the fields `fields` and the name `cmdStr` runs the handler
for that name, or does nothing if there is none. -/
structure Recognised (σ ν : Type) (parser : JsonParser) (memory : ℤ)
    (json : String) (fields : List (String × Json)) (cmdStr : String) :
    Prop where
  unlisted : cmdStr ∉ commandNames →
    typeCode memory cmdStr = CommandType.Unknown.code ∧
      Inert σ ν parser memory json
  listed : cmdStr ∈ commandNames → ∀ svc : Services σ ν,
    ∃ command handler,
      JsonCommand.ofJson (.ofCode memory) (.object fields) = .ok command ∧
      namedHandler (svc.finding memory) command cmdStr = some handler ∧
      handleTyped (svc.finding memory) command =
        gated cmdStr command handler

section Names

variable {parser : JsonParser} {json cmdStr : String}
  {fields : List (String × Json)}

theorem ofJson_object (hmsg : fields.lookup "msg" = some (.string cmdStr))
    (uninitialised : CommandType) :
    JsonCommand.ofJson uninitialised (.object fields) =
      .ok ⟨.object fields, commandType uninitialised cmdStr⟩ := by
  simp [JsonCommand.ofJson, Json.index, hmsg, Json.getString, bind,
    Except.bind, pure, Except.pure]

/-- The handler for a listed name is run, whatever lies in memory. -/
theorem handleTyped_listed (hlisted : cmdStr ∈ commandNames) (doc : Json)
    (memory : ℤ) (svc : Services σ ν) :
    ∃ handler,
      namedHandler svc ⟨doc, commandType (.ofCode memory) cmdStr⟩ cmdStr =
        some handler ∧
      handleTyped svc ⟨doc, commandType (.ofCode memory) cmdStr⟩ =
        gated cmdStr ⟨doc, commandType (.ofCode memory) cmdStr⟩ handler := by
  simp only [commandNames, List.mem_cons, List.not_mem_nil, or_false]
    at hlisted
  rcases hlisted with rfl | rfl | rfl | rfl | rfl | rfl | rfl | rfl | rfl | rfl
  all_goals exact ⟨_, rfl, rfl⟩

theorem handleJsonCommand_eq (hparse : parser.parse json = .parsed doc)
    (svc : Services σ ν) :
    handleJsonCommand svc parser json = pure () ∨
      handleJsonCommand svc parser json = handleDocument svc doc := by
  unfold handleJsonCommand
  split
  · exact .inl rfl
  · rw [hparse]
    exact .inr rfl

/-- A command without a type does nothing. -/
theorem inert_of_unknown (hparse : parser.parse json = .parsed (.object fields))
    (hmsg : fields.lookup "msg" = some (.string cmdStr)) {memory : ℤ}
    (htype : commandType (.ofCode memory) cmdStr = .Unknown) :
    Inert σ ν parser memory json := by
  intro svc s
  rcases handleJsonCommand_eq hparse (svc.finding memory) with hempty | hdoc
  · rw [hempty]
    exact .inl rfl
  have hunknown : ∀ command,
      JsonCommand.ofJson (svc.finding memory).uninitialised (.object fields) =
        .ok command → command.type = .Unknown := by
    intro command hcommand
    have heq := (ofJson_object hmsg _).symm.trans hcommand
    rw [← Except.ok.inj heq]
    exact htype
  rw [hdoc]
  apply handleDocument_rule
  · intro e _ _
    exact .inl rfl
  · intro command _ _ _
    exact .inl rfl
  · intro command hcommand hopen
    rw [hunknown command hcommand] at hopen
    cases hopen
  · intro command _ _ _
    exact .inr rfl
  · intro command e _ _ _ _ _
    exact .inl rfl
  · intro command queryId hcommand _ _ _
    rw [dispatchCommand, hunknown command hcommand]
    exact .inr rfl

/-- A command does what its name says, or nothing, exactly when the name is
one of the ten or memory holds the number of `Unknown`. -/
theorem recognised_iff (hparse : parser.parse json = .parsed (.object fields))
    (hmsg : fields.lookup "msg" = some (.string cmdStr)) (memory : ℤ) :
    Recognised σ ν parser memory json fields cmdStr ↔
      cmdStr ∈ commandNames ∨ memory = CommandType.Unknown.code := by
  constructor
  · intro hrecognised
    by_cases hlisted : cmdStr ∈ commandNames
    · exact .inl hlisted
    · have htype := (hrecognised.unlisted hlisted).1
      rw [typeCode_of_unlisted hlisted] at htype
      exact .inr htype
  · intro hor
    constructor
    · intro hunlisted
      have hmemory := hor.resolve_left hunlisted
      have hcode := typeCode_of_unlisted hunlisted memory
      rw [hcode]
      refine ⟨hmemory, inert_of_unknown hparse hmsg ?_⟩
      rw [← ofCode_typeCode, hcode, hmemory, CommandType.ofCode_code]
    · intro hlisted svc
      obtain ⟨handler, hnamed, htyped⟩ := handleTyped_listed hlisted
        (.object fields) memory (svc.finding memory)
      exact ⟨_, handler, ofJson_object hmsg _, hnamed, htyped⟩

end Names

/-! ## A name that is none of the ten -/

/-- The text of a command to pause. -/
def pauseText : String :=
  "\x7b\"msg\":\"pause\"\x7d"

def pauseFields : List (String × Json) :=
  [("msg", .string "pause")]

/-- A parser that knows the command. -/
def pauseParser : JsonParser :=
  .ofTexts [(pauseText, .object pauseFields)]

theorem recognised_pause :
    Recognised ℕ Unit pauseParser (-1) pauseText pauseFields "pause" :=
  (recognised_iff rfl rfl (-1)).mpr (.inr rfl)

/-- Where the number of `Close` lies in memory, the session closes. -/
theorem recognised_fails_on_pause :
    ¬Recognised ℕ Unit pauseParser CommandType.Close.code pauseText pauseFields
      "pause" := by
  intro hrecognised
  let s : RSession ℕ Unit := (RSession.fresh 0).opened
  have hinert := (hrecognised.unlisted (by decide)).2 (.succeeding ()) s
  have hfinal : Untouched s
      (handleJsonCommand
        ((Services.succeeding ()).finding CommandType.Close.code)
        pauseParser pauseText s).2 := hinert.final
  have hclosed : (handleJsonCommand
        ((Services.succeeding ()).finding CommandType.Close.code)
        pauseParser pauseText s).2.loopBreak = true := rfl
  rcases hfinal with hsame | hsame
  · rw [hsame] at hclosed
    cases hclosed
  · rw [hsame] at hclosed
    cases hclosed

end Rc2Compute.Session
