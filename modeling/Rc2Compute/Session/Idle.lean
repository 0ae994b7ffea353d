import Rc2Compute.Session.Commands
import Rc2Compute.Support.Transition

/-!
# The idle state

Between two commands no query is under way and no output is muted, captured,
or taken for that of a file.  A command leaves the session idle unless an
exception other than a `std::runtime_error` passes the line that resets the
query id, or an exception leaves a call made with a flag raised that no
destructor lowers.
-/

namespace Rc2Compute.Session

open Files (FileInfo)

variable {σ ν : Type}

/-- The session between two commands. -/
structure Idle (s : RSession σ ν) : Prop extends s.Quiet where
  currentQueryId : s.currentQueryId = 0

theorem idle_fresh (outer : σ) : Idle (RSession.fresh outer : RSession σ ν) :=
  ⟨⟨rfl, rfl, rfl⟩, rfl⟩

variable (svc : Services σ ν)

/-- The condition on a command of an open session: if it throws, then from no
call with a flag raised, and a `std::runtime_error` or under no query. -/
def CommandTidy (command : JsonCommand) (s : RSession σ ν) : Prop :=
  ∀ f ∈ dispatchFailure svc command s,
    ¬dispatchRaised svc command s f.call ∧
      (f.error.type.isRuntimeError = true ∨ command.queryId = .ok 0)

/-- The condition on a document: an `open` command of a closed session does
not fail while R is prepared, and any other command of an open session is
tidy. -/
def DocumentTidy (doc : Json) (s : RSession σ ν) : Prop :=
  match JsonCommand.ofJson svc.uninitialised doc with
  | .error _ => True
  | .ok command =>
      if command.type = .Open then
        s.isOpen = false →
          ∀ f ∈ startFailure svc command s, ¬openRaised f.call
      else s.isOpen = true → CommandTidy svc command s

/-- The condition on a text. -/
def MessageTidy (parser : JsonParser) (json : String) (s : RSession σ ν) :
    Prop :=
  match parser.parse json with
  | .parsed doc => DocumentTidy svc doc s
  | .invalidArgument | .otherException => True

variable {svc}

/-- The failures of a command do not depend on the query under way. -/
theorem dispatchFailure_querying (command : JsonCommand) (queryId : ℤ)
    (s : RSession σ ν) :
    dispatchFailure svc command (s.querying queryId) =
      dispatchFailure svc command s :=
  rfl

theorem Idle.of_quiet {s : RSession σ ν} (h : s.Quiet) :
    Idle (s.querying 0) where
  toQuiet := h.of_flags rfl rfl rfl
  currentQueryId := rfl

/-- A command of an open session. -/
theorem Idle.dispatch {command : JsonCommand} {queryId : ℤ}
    {s : RSession σ ν} (hs : Idle s) (htidy : CommandTidy svc command s)
    (hid : command.queryId = .ok queryId) :
    Act.wp (dispatchCommand svc command)
      (fun _ s' => Idle (s'.querying 0))
      (Caught (fun _ => Idle) (fun _ => Idle)) (s.querying queryId) := by
  have hquery : (s.querying queryId).Quiet := hs.toQuiet.of_flags rfl rfl rfl
  refine (dispatchCommand_spec svc command _).mono ?_ ?_
  · rintro _ s' ⟨-, hquiet, -⟩
    exact Idle.of_quiet (hquiet hquery)
  · rintro e s' ⟨c, hsome, hprogress, hquiet⟩
    rw [dispatchFailure_querying] at hsome
    obtain ⟨hraised, hcaught⟩ := htidy _ hsome
    have hs' : s'.Quiet := hquiet hraised hquery
    rw [Caught]
    split
    next => exact Idle.of_quiet (hs'.sending _)
    next hother =>
      have hzero : command.queryId = .ok 0 := hcaught.resolve_left hother
      have hqueryId : queryId = 0 := by
        rw [hid] at hzero
        exact Except.ok.inj hzero
      exact ⟨hs', hprogress.currentQueryId.trans hqueryId⟩

/-- An `open` command of a closed session. -/
theorem Idle.start {command : JsonCommand} {s : RSession σ ν} (hs : Idle s)
    (hopen : s.isOpen = false)
    (htidy : ∀ f ∈ startFailure svc command s, ¬openRaised f.call) :
    Act.wp (handleOpenCommand svc command)
      (fun _ s' => Idle (s'.querying 0))
      (Caught (fun _ => Idle) (fun _ => Idle)) s := by
  refine (handleOpenCommand_spec svc command hopen).mono ?_ ?_
  · rintro _ s' ⟨hquiet, -⟩
    exact Idle.of_quiet (hquiet htidy hs.toQuiet)
  · rintro e s' ⟨c, hsome, hother, hprogress, hquiet⟩
    rw [Caught, if_neg hother]
    exact ⟨hquiet (htidy _ hsome) hs.toQuiet,
      hprogress.currentQueryId.trans hs.currentQueryId⟩

theorem Idle.document {doc : Json} {s : RSession σ ν} (hs : Idle s)
    (htidy : DocumentTidy svc doc s) :
    Act.wp (handleDocument svc doc) (fun _ => Idle) (fun _ => Idle) s := by
  rw [DocumentTidy] at htidy
  apply handleDocument_rule
  · exact fun _ _ _ => hs
  · exact fun _ _ _ _ => hs
  · intro command hjson htype hopen
    rw [hjson] at htidy
    dsimp only at htidy
    rw [if_pos htype] at htidy
    exact hs.start hopen (htidy hopen)
  · exact fun _ _ _ _ => Idle.of_quiet hs.toQuiet
  · exact fun _ _ _ _ _ _ _ => hs
  · intro command queryId hjson htype hopen hid
    rw [hjson] at htidy
    dsimp only at htidy
    rw [if_neg htype] at htidy
    exact hs.dispatch (htidy hopen) hid

/-- A text whose document is tidy leaves the session idle, however its
handling ends. -/
theorem Idle.message {parser : JsonParser} {json : String}
    {s : RSession σ ν} (hs : Idle s) (htidy : MessageTidy svc parser json s) :
    Idle (handleJsonCommand svc parser json s).2 := by
  rw [MessageTidy] at htidy
  rw [handleJsonCommand]
  split
  next => exact hs
  next =>
    cases hparse : parser.parse json with
    | invalidArgument => exact hs
    | otherException =>
        have hnull : DocumentTidy svc .null s := by
          rw [DocumentTidy, show JsonCommand.ofJson svc.uninitialised .null =
            .error _ from rfl]
          trivial
        exact (hs.document hnull).final
    | parsed doc =>
        rw [hparse] at htidy
        exact (hs.document htidy).final

/-- An acknowledgement touches no flag. -/
theorem Idle.execComplete {command : JsonCommand} {queryId : ℤ}
    {finfo : FileInfo} {s : RSession σ ν} (hs : Idle s) :
    Idle (handleExecComplete svc command queryId finfo s).2 := by
  have hidle : Act.wp (handleExecComplete svc command queryId finfo)
      (fun _ => Idle) (fun _ => Idle) s := by
    refine (handleExecComplete_spec svc command queryId finfo s).mono ?_ ?_
    · rintro _ s' ⟨-, hquiet, replies, -, hprogress⟩
      exact ⟨hquiet hs.toQuiet,
        hprogress.currentQueryId.trans hs.currentQueryId⟩
    · rintro e s' ⟨c, -, hprogress, hquiet⟩
      exact ⟨hquiet not_false hs.toQuiet,
        hprogress.currentQueryId.trans hs.currentQueryId⟩
  exact hidle.final

/-! ## Runs -/

/-- One callback of the loop: a text for `handleJsonCommand`, from the client
or from the queue, or an acknowledgement. -/
def sessionStep (parser : JsonParser) (s : RSession σ ν)
    (callback : Services σ ν × Deferred) : RSession σ ν :=
  (runDeferred callback.1 parser callback.2 s).2

/-- The condition on a callback. -/
def CallbackTidy (parser : JsonParser) (s : RSession σ ν)
    (callback : Services σ ν × Deferred) : Prop :=
  match callback.2 with
  | .command json => MessageTidy callback.1 parser json s
  | .execComplete _ _ _ => True

theorem Idle.step {parser : JsonParser} {s : RSession σ ν}
    {callback : Services σ ν × Deferred} (hs : Idle s)
    (htidy : CallbackTidy parser s callback) :
    Idle (sessionStep parser s callback) := by
  obtain ⟨svc, event⟩ := callback
  cases event with
  | command json => exact hs.message htidy
  | execComplete command queryId finfo => exact hs.execComplete

/-- After every callback of a run whose callbacks are tidy, the session is
idle. -/
theorem idle_of_callbackTidy (parser : JsonParser) (outer : σ)
    (callbacks : List (Services σ ν × Deferred))
    (htidy : Transition.Along (sessionStep parser) (CallbackTidy parser)
      (RSession.fresh outer) callbacks) :
    Transition.Along (sessionStep parser)
      (fun s callback => Idle (sessionStep parser s callback))
      (RSession.fresh outer) callbacks :=
  Transition.along_of_invariant (fun _ _ hs h => hs.step h)
    (fun _ _ hs h => hs.step h) (idle_fresh outer) htidy

/-! ## A topic that is a number -/

/-- The parser of a client that opens a session and asks for help. -/
def helpParser : JsonParser :=
  .ofTexts [
    ("open", .object [("msg", .string "open"), ("wspaceId", .integer 1),
      ("sessionRecId", .integer 1)]),
    ("help", .object [("msg", .string "help"), ("queryId", .integer 5),
      ("argument", .string "lm")]),
    ("help 7", .object [("msg", .string "help"), ("queryId", .integer 5),
      ("argument", .integer 7)])]

theorem callbackTidy_help :
    Transition.Along (sessionStep helpParser) (CallbackTidy helpParser)
      (RSession.fresh ())
      [((.succeeding () : Services Unit Unit), .command "open"),
        (.succeeding (), .command "help")] := by
  refine ⟨fun _ f hf => ?_, fun _ f hf => ?_, trivial⟩
  · have hnone : none = some f := hf
    cases hnone
  · have hnone : none = some f := hf
    cases hnone

theorem idle_of_callbackTidy_help :
    Transition.Along (sessionStep helpParser)
      (fun s callback => Idle (sessionStep helpParser s callback))
      (RSession.fresh ())
      [((.succeeding () : Services Unit Unit), .command "open"),
        (.succeeding (), .command "help")] :=
  idle_of_callbackTidy helpParser () _ callbackTidy_help

/-- The topic is read after the query id has been set, and its exception is
no `std::runtime_error`. -/
theorem idle_fails_on_numeric_topic :
    ¬Transition.Along (sessionStep helpParser)
      (fun s callback => Idle (sessionStep helpParser s callback))
      (RSession.fresh ())
      [((.succeeding () : Services Unit Unit), .command "open"),
        (.succeeding (), .command "help 7")] := by
  rintro ⟨-, hidle, -⟩
  have hid := hidle.currentQueryId
  revert hid
  decide

end Rc2Compute.Session
