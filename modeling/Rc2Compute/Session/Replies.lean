import Rc2Compute.Session.Commands
import Rc2Compute.Session.Copies

/-!
# Replies to execution requests

A request to run a script or a file is answered by one terminal message: an
`execComplete`, sent by an event the handler puts in the queue, an `error`, or
the message for an incomplete statement.  `Answer` says which of them the
handlers choose, `Reception` what of it gets to the client, and `RepliesOnce`
when the client gets exactly one.

Messages wait in a buffer until the callbacks of a pass are done: a session
that ends, or does not come back, takes them with it.
-/

namespace Rc2Compute.Session

open Files (FileInfo)

variable {σ ν : Type}

/-! ## One reply -/

namespace Message

/-- The messages that end an execution request.  The only text the session
writes itself is the one for an incomplete statement. -/
def isTerminal : Message ν → Bool
  | .execComplete _ _ _ _ _ _ | .error _ _ _ | .results _ _ _ .session => true
  | _ => false

def isShowOutput : Message ν → Bool
  | .showoutput _ => true
  | _ => false

/-- The field `expectShowOutput`. -/
def expectShowOutput : Message ν → Option Bool
  | .execComplete _ _ _ expectShowOutput _ _ => some expectShowOutput
  | _ => none

end Message

/-- Each `execComplete` is followed by the `showoutput` messages it
announces. -/
def ShownAsExpected : List (Message ν) → Prop
  | [] => True
  | m :: rest =>
      (∀ expected ∈ m.expectShowOutput,
        rest.countP Message.isShowOutput = if expected then 1 else 0) ∧
      ShownAsExpected rest

/-- The messages sent for an execution request that has been answered once. -/
structure OneReply (messages : List (Message ν)) : Prop where
  terminal : messages.countP Message.isTerminal = 1
  shown : ShownAsExpected messages

section OneReply

variable {messages replies rest : List (Message ν)}

/-- The messages besides what R wrote. -/
def ofSession (messages : List (Message ν)) : List (Message ν) :=
  messages.filter fun m => !m.fromConsole

theorem Message.isTerminal_of_fromConsole {m : Message ν}
    (h : m.fromConsole = true) : m.isTerminal = false := by
  cases m with
  | results string isError queryId origin =>
      cases origin with
      | console => rfl
      | session => cases h
  | _ => cases h

theorem Message.isShowOutput_of_fromConsole {m : Message ν}
    (h : m.fromConsole = true) : m.isShowOutput = false := by
  cases m with
  | results => rfl
  | _ => cases h

theorem Message.expectShowOutput_of_fromConsole {m : Message ν}
    (h : m.fromConsole = true) : m.expectShowOutput = none := by
  cases m with
  | results => rfl
  | _ => cases h

/-- Counting what R never writes. -/
theorem countP_ofSession (messages : List (Message ν)) {p : Message ν → Bool}
    (hp : ∀ m : Message ν, m.fromConsole = true → p m = false) :
    (ofSession messages).countP p = messages.countP p := by
  rw [ofSession, List.countP_filter]
  apply List.countP_congr
  intro m _
  cases hm : m.fromConsole with
  | true => simp [hp m hm]
  | false => simp

theorem shownAsExpected_ofSession :
    ShownAsExpected (ofSession messages) ↔ ShownAsExpected messages := by
  induction messages with
  | nil => rfl
  | cons m rest ih =>
      rw [ofSession, List.filter_cons]
      cases hm : m.fromConsole with
      | true =>
          have hexpected := Message.expectShowOutput_of_fromConsole hm
          simpa [ShownAsExpected, hexpected, ofSession] using ih
      | false =>
          have hcount := countP_ofSession rest
            fun _ h => Message.isShowOutput_of_fromConsole h
          rw [ofSession] at ih hcount
          simp [ShownAsExpected, ih, hcount]

theorem oneReply_ofSession : OneReply (ofSession messages) ↔ OneReply messages := by
  have hcount := countP_ofSession messages
    fun _ h => Message.isTerminal_of_fromConsole h
  constructor
  · rintro ⟨hterminal, hshown⟩
    exact ⟨hcount ▸ hterminal, shownAsExpected_ofSession.mp hshown⟩
  · rintro ⟨hterminal, hshown⟩
    exact ⟨hcount.trans hterminal, shownAsExpected_ofSession.mpr hshown⟩

/-- What R wrote does not count. -/
theorem oneReply_append_ofSession :
    OneReply (rest ++ ofSession messages) ↔ OneReply (rest ++ messages) := by
  have htwice : ofSession (rest ++ ofSession messages) =
      ofSession (rest ++ messages) := by
    simp [ofSession, List.filter_append, List.filter_filter]
  rw [← oneReply_ofSession, htwice, oneReply_ofSession]

/-- A single message that is no acknowledgement. -/
theorem oneReply_singleton {m : Message ν} (hterminal : m.isTerminal = true)
    (hexpected : m.expectShowOutput = none) : OneReply [m] where
  terminal := by simp [hterminal]
  shown := by simp [ShownAsExpected, hexpected]

theorem Message.isAnswer_spec {m : Message ν} (h : m.isAnswer = true) :
    m.isTerminal = false ∧ m.isShowOutput = false ∧
      m.expectShowOutput = none := by
  cases m with
  | variableupdate | variablevalue | help | openresponse =>
      exact ⟨rfl, rfl, rfl⟩
  | _ => cases h

theorem countP_of_isAnswer {p : Message ν → Bool}
    (hrest : ∀ m ∈ rest, m.isAnswer = true)
    (hp : ∀ m : Message ν, m.isAnswer = true → p m = false) :
    rest.countP p = 0 := by
  rw [List.countP_eq_zero]
  intro m hm
  simp [hp m (hrest m hm)]

theorem shownAsExpected_of_isAnswer (hrest : ∀ m ∈ rest, m.isAnswer = true) :
    ShownAsExpected rest := by
  induction rest with
  | nil => trivial
  | cons m rest ih =>
      constructor
      · simp [(Message.isAnswer_spec (hrest m (by simp))).2.2]
      · exact ih fun m' hm' => hrest m' (by simp [hm'])

theorem Message.expectShowOutput_of_not_isTerminal {m : Message ν}
    (h : m.isTerminal = false) : m.expectShowOutput = none := by
  cases m with
  | execComplete => cases h
  | _ => rfl

/-- Messages without a terminal one announce nothing. -/
theorem shownAsExpected_append
    (hnone : messages.countP Message.isTerminal = 0)
    (hrest : ShownAsExpected rest) : ShownAsExpected (messages ++ rest) := by
  induction messages with
  | nil => exact hrest
  | cons m messages ih =>
      rw [List.countP_eq_zero] at hnone
      have hm : m.isTerminal = false := by simpa using hnone m (by simp)
      constructor
      · simp [Message.expectShowOutput_of_not_isTerminal hm]
      · apply ih
        rw [List.countP_eq_zero]
        exact fun m' hm' => hnone m' (by simp [hm'])

/-- An acknowledgement, its `showoutput`, and answers to other requests. -/
theorem AckReplies.oneReply {command : JsonCommand} {queryId : ℤ}
    {finfo : FileInfo} (h : AckReplies command queryId finfo replies)
    (hrest : ∀ m ∈ rest, m.isAnswer = true) : OneReply (replies ++ rest) := by
  obtain ⟨startTime, images, imgBatch, file, rfl⟩ := h
  have hterminal := countP_of_isAnswer hrest
    fun _ hm => (Message.isAnswer_spec hm).1
  have hshown := countP_of_isAnswer hrest
    fun _ hm => (Message.isAnswer_spec hm).2.1
  have hexpected := shownAsExpected_of_isAnswer hrest
  by_cases hfile : finfo.id > 0
  · rw [if_pos hfile]
    constructor
    · simp [List.countP_cons, Message.isTerminal, hterminal]
    · simp [List.countP_cons, ShownAsExpected, Message.expectShowOutput,
        Message.isShowOutput, hfile, hshown, hexpected]
  · rw [if_neg hfile]
    constructor
    · simp [List.countP_cons, Message.isTerminal, hterminal]
    · simp [ShownAsExpected, Message.expectShowOutput, hfile, hshown,
        hexpected]

/-- An error sent after an acknowledgement is a second terminal message. -/
theorem AckReplies.two_terminal {command : JsonCommand} {queryId : ℤ}
    {finfo : FileInfo} (h : AckReplies command queryId finfo replies)
    (e : CxxException) :
    2 ≤ (replies ++ [commandError e]).countP Message.isTerminal := by
  obtain ⟨startTime, images, imgBatch, file, rfl⟩ := h
  have herror : [(commandError e : Message ν)].countP Message.isTerminal = 1 :=
    rfl
  rw [List.countP_append, herror, List.countP_cons]
  simp [Message.isTerminal]

end OneReply

/-! ## What is sent -/

/-- Between `s` and `s'` the session has sent `replies`, besides what R wrote,
and put `events` in the queue. -/
structure Sends (s s' : RSession σ ν) (replies : List (Message ν))
    (events : List Deferred) : Prop where
  isOpen : s'.isOpen = s.isOpen
  deferred : s'.deferred = s.deferred ++ events
  sent : ∃ messages, s'.sent = s.sent ++ messages ∧
    ofSession messages = replies

namespace Sends

variable {s s' s'' : RSession σ ν} {replies replies' : List (Message ν)}
  {events events' : List Deferred}

theorem of_progress (h : Progress s s' replies events) :
    Sends s s' replies events where
  isOpen := h.isOpen
  deferred := h.deferred
  sent := by
    obtain ⟨messages, hsent, hreplies, -⟩ := h.sent
    exact ⟨messages, hsent, hreplies⟩

theorem refl (s : RSession σ ν) : Sends s s [] [] :=
  of_progress (Progress.refl s)

theorem trans (h : Sends s s' replies events)
    (h' : Sends s' s'' replies' events') :
    Sends s s'' (replies ++ replies') (events ++ events') where
  isOpen := h'.isOpen.trans h.isOpen
  deferred := by rw [h'.deferred, h.deferred, List.append_assoc]
  sent := by
    obtain ⟨messages, hsent, hreplies⟩ := h.sent
    obtain ⟨messages', hsent', hreplies'⟩ := h'.sent
    refine ⟨messages ++ messages', ?_, ?_⟩
    · rw [hsent', hsent, List.append_assoc]
    · rw [ofSession, List.filter_append, ← ofSession, ← ofSession, hreplies,
        hreplies']

theorem querying (queryId : ℤ) (h : Sends s s' replies events) :
    Sends s (s'.querying queryId) replies events :=
  ⟨h.isOpen, h.deferred, h.sent⟩

/-- A query id that is set first. -/
theorem of_querying {queryId : ℤ}
    (h : Sends (s.querying queryId) s' replies events) :
    Sends s s' replies events :=
  ⟨h.isOpen, h.deferred, h.sent⟩

/-- The message of the catch clause. -/
theorem caught (h : Sends s s' [] []) (e : CxxException) :
    Sends s ((s'.sending (commandError e)).querying 0) [commandError e] [] :=
  (h.trans (of_progress (Progress.sending rfl rfl s'))).querying 0

end Sends

/-! ## The way from a text to its command -/

/-- A text that `handleJsonCommand` reads as a command other than `open`. -/
structure Requests (svc : Services σ ν) (parser : JsonParser) (json : String)
    (command : JsonCommand) : Prop where
  nonempty : 0 < json.length
  parses : ∃ doc, parser.parse json = .parsed doc ∧
    JsonCommand.ofJson svc.uninitialised doc = .ok command
  type_ne : command.type ≠ .Open

variable (svc : Services σ ν) (parser : JsonParser)

/-- The changed variables are listed by a text of the session's own. -/
theorem requests_delta :
    Requests svc parser listVariablesDelta deltaCommand where
  nonempty := by decide
  parses := ⟨_, parser.parse_delta, ofJson_deltaCommand _⟩
  type_ne := by decide

variable {svc parser}

/-- The rule of `handleJsonCommand` for a command of an open session. -/
theorem Requests.rule {json : String} {command : JsonCommand}
    {s : RSession σ ν} {post : Unit → RSession σ ν → Prop}
    {exn : CxxException → RSession σ ν → Prop}
    (h : Requests svc parser json command) (hopen : s.isOpen = true)
    (hfield : ∀ e, command.queryId = .error e →
      ¬e.type.isRuntimeError = true → exn e s)
    (hcommand : ∀ queryId, command.queryId = .ok queryId →
      Act.wp (dispatchCommand svc command)
        (fun _ s' => post () (s'.querying 0)) (Caught post exn)
        (s.querying queryId)) :
    Act.wp (handleJsonCommand svc parser json) post exn s := by
  obtain ⟨doc, hparse, hjson⟩ := h.parses
  have hlength : ¬json.length < 1 := by
    have := h.nonempty
    omega
  rw [handleJsonCommand, if_neg hlength, hparse]
  apply handleDocument_rule
  · intro e hbad _
    rw [hjson] at hbad
    cases hbad
  · intro command' hjson' htype _
    rw [hjson] at hjson'
    cases hjson'
    exact absurd htype h.type_ne
  · intro command' hjson' htype _
    rw [hjson] at hjson'
    cases hjson'
    exact absurd htype h.type_ne
  · intro _ _ _ hclosed
    rw [hopen] at hclosed
    cases hclosed
  · intro command' e hjson' _ _ hid hother
    rw [hjson] at hjson'
    cases hjson'
    exact hfield e hid hother
  · intro command' queryId hjson' _ _ hid
    rw [hjson] at hjson'
    cases hjson'
    exact hcommand queryId hid

/-! ## Answers -/

/-- How a handler answers an execution request when it returns: not at all, by
one message, or by an acknowledgement in the queue, followed by the changed
variables or not. -/
inductive Answer where
  | silent
  | replied
  | acknowledged (delta : Bool)
deriving DecidableEq, Repr

variable (svc)

/-- The answer to a script. -/
def scriptAnswer (command : JsonCommand) (s : RSession σ ν) : Answer :=
  match svc.parseResult with
  | .PE_SUCCESS =>
      match sendsDelta command s with
      | .ok sendDelta => .acknowledged sendDelta
      | .error _ => .acknowledged false
  | .PE_INCOMPLETE => .replied
  | .PE_ERROR | .PE_NULL | .PE_EOF | .PE_EXEC_ERROR => .silent

/-- The answer to a file. -/
def fileAnswer (command : JsonCommand) (s : RSession σ ν) : Answer :=
  match commandFile svc command s with
  | none => .replied
  | some fpath =>
      match fileKind fpath with
      | .markdown =>
          if markdownReports svc fpath s.tmpDir (fileOuter svc s) then
            .acknowledged false
          else .replied
      | .sweave => .acknowledged false
      | .source => .acknowledged s.watchVariables
      | .unsupported => .replied

/-- The answer to an execution request. -/
def execAnswer (command : JsonCommand) (s : RSession σ ν) : Answer :=
  if command.type = .ExecScript then scriptAnswer svc command s
  else fileAnswer svc command s

/-- A terminal message of a query that announces no output. -/
structure Message.IsReply (queryId : ℤ) (m : Message ν) : Prop where
  terminal : m.isTerminal = true
  expectShowOutput : m.expectShowOutput = none
  queryId : m.queryId = queryIdField queryId

theorem isReply_error (errorCode : ℤ) (details : String) (queryId : ℤ) :
    (formatErrorAsJson errorCode details queryId : Message ν).IsReply queryId :=
  ⟨rfl, rfl, rfl⟩

theorem Message.IsReply.oneReply {queryId : ℤ} {m : Message ν}
    (h : m.IsReply queryId) : OneReply [m] :=
  oneReply_singleton h.terminal h.expectShowOutput

/-- What a handler that returns has sent and put in the queue. -/
def Answer.Given (command : JsonCommand) (queryId : ℤ)
    (replies : List (Message ν)) (events : List Deferred) : Answer → Prop
  | .silent => replies = [] ∧ events = []
  | .replied => (∃ m : Message ν, replies = [m] ∧ m.IsReply queryId) ∧
      events = []
  | .acknowledged delta =>
      replies = [] ∧ ∃ finfo, events =
        .execComplete command queryId finfo ::
          if delta then [.command listVariablesDelta] else []

/-- A command that runs a script or a file. -/
def IsExecution (command : JsonCommand) : Prop :=
  command.type = .ExecScript ∨ command.type = .ExecFile

variable {svc}

theorem given_script {command : JsonCommand} {queryId : ℤ}
    {s s' : RSession σ ν}
    (h : Progress (s.querying queryId) s'
      (scriptReplies svc (s.querying queryId))
      (scriptEvents svc command (s.querying queryId))) :
    ∃ replies events, Progress (s.querying queryId) s' replies events ∧
      (scriptAnswer svc command s).Given command queryId replies events := by
  refine ⟨_, _, h, ?_⟩
  have hdelta : sendsDelta command (s.querying queryId) =
      sendsDelta command s := rfl
  unfold scriptAnswer scriptReplies scriptEvents
  rw [hdelta]
  cases svc.parseResult with
  | PE_SUCCESS =>
      cases sendsDelta command s with
      | error e => exact ⟨rfl, noFile, rfl⟩
      | ok sendDelta =>
          cases sendDelta with
          | true => exact ⟨rfl, noFile, rfl⟩
          | false => exact ⟨rfl, noFile, rfl⟩
  | PE_INCOMPLETE => exact ⟨⟨_, rfl, rfl, rfl, rfl⟩, rfl⟩
  | PE_ERROR | PE_NULL | PE_EOF | PE_EXEC_ERROR => exact ⟨rfl, rfl⟩

theorem given_file {command : JsonCommand} {queryId : ℤ}
    {s s' : RSession σ ν}
    (h : FileCommandEnd svc command (s.querying queryId) s') :
    ∃ replies events, Progress (s.querying queryId) s' replies events ∧
      (fileAnswer svc command s).Given command queryId replies events := by
  have hfile : commandFile svc command (s.querying queryId) =
      commandFile svc command s := rfl
  unfold fileAnswer
  rw [FileCommandEnd, hfile] at h
  cases hpath : commandFile svc command s with
  | none =>
      rw [hpath] at h
      obtain ⟨details, hend⟩ := h
      exact ⟨_, _, hend, ⟨_, rfl, isReply_error _ _ _⟩, rfl⟩
  | some fpath =>
      rw [hpath] at h
      dsimp only at h ⊢
      rw [FileEnd] at h
      cases hkind : fileKind fpath with
      | markdown =>
          rw [hkind] at h
          have houter : markdownReports svc fpath (s.querying queryId).tmpDir
              (fileOuter svc (s.querying queryId)) =
                markdownReports svc fpath s.tmpDir (fileOuter svc s) := rfl
          dsimp only at h ⊢
          rw [MarkdownEnd, houter] at h
          split at h
          next hreports =>
            obtain ⟨finfo, hend⟩ := h
            rw [if_pos hreports]
            exact ⟨_, _, hend, rfl, finfo, rfl⟩
          next hreports =>
            obtain ⟨details, hend⟩ := h
            rw [if_neg hreports]
            exact ⟨_, _, hend, ⟨_, rfl, isReply_error _ _ _⟩, rfl⟩
      | sweave =>
          rw [hkind] at h
          obtain ⟨finfo, hend⟩ := h
          exact ⟨_, _, hend, rfl, finfo, rfl⟩
      | source =>
          rw [hkind] at h
          exact ⟨_, _, h, rfl, noFile, rfl⟩
      | unsupported =>
          rw [hkind] at h
          exact ⟨_, _, h, ⟨_, rfl, isReply_error _ _ _⟩, rfl⟩

theorem given_of_dispatchEnd {command : JsonCommand} {queryId : ℤ}
    {s s' : RSession σ ν} (hexec : IsExecution command)
    (h : DispatchEnd svc command (s.querying queryId) s') :
    ∃ replies events, Progress (s.querying queryId) s' replies events ∧
      (execAnswer svc command s).Given command queryId replies events := by
  rw [DispatchEnd] at h
  rcases hexec with htype | htype
  · rw [htype] at h
    rw [execAnswer, if_pos htype]
    exact given_script h
  · rw [htype] at h
    rw [execAnswer, if_neg (by simp [htype])]
    exact given_file h

/-! ## When a request is answered once -/

/-- What the client gets of the replies of the session itself: one, none, or
two. -/
inductive Reception where
  | once
  | never
  | twice
deriving DecidableEq, Repr

namespace Reception

/-- The replies that get to the client. -/
def Of (replies : List (Message ν)) : Reception → Prop
  | .once => OneReply replies
  | .never => replies = []
  | .twice => 2 ≤ replies.countP Message.isTerminal

/-- The condition on what copies of the session have sent. -/
def Completes (copied : List (Message ν)) : Reception → Prop
  | .once => copied.countP Message.isTerminal = 0
  | .never => OneReply copied
  | .twice => False

theorem Of.oneReply_append {reception : Reception}
    {copied replies : List (Message ν)} (h : reception.Of replies) :
    OneReply (copied ++ replies) ↔ reception.Completes copied := by
  cases reception with
  | once =>
      constructor
      · intro honce
        have hcount := honce.terminal
        rw [List.countP_append, h.terminal] at hcount
        rw [Completes]
        omega
      · intro hnone
        refine ⟨?_, shownAsExpected_append hnone h.shown⟩
        rw [List.countP_append, hnone, h.terminal]
  | never =>
      obtain rfl := h
      rw [List.append_nil, Completes]
  | twice =>
      refine iff_of_false (fun honce => ?_) not_false
      have hcount := honce.terminal
      rw [List.countP_append] at hcount
      rw [Of] at h
      omega

end Reception

variable (svc)

/-- What follows a handler that returns: an acknowledgement is lost with one
of its own calls, and with the listing sent after it when that ends the
session; an error of the listing is a second reply. -/
def Answer.reception (command : JsonCommand) : Answer → Reception
  | .silent => .never
  | .replied => .once
  | .acknowledged delta =>
      match ackFailure svc command,
        if delta then svc.firstFailure (listCalls svc true) else none with
      | some _, _ => .never
      | none, some f => if f.error.type.isRuntimeError then .twice else .never
      | none, none => .once

/-- What the client gets of the replies to an execution request: its query id
can be read, and its handler fails with a `std::runtime_error`, or answers. -/
def requestReception (command : JsonCommand) (s : RSession σ ν) : Reception :=
  match command.queryId, dispatchFailure svc command s with
  | .error _, _ => .never
  | .ok _, some f => if f.error.type.isRuntimeError then .once else .never
  | .ok _, none => (execAnswer svc command s).reception svc command

/-- What copies of the session send while a request is handled. -/
def requestCopies (command : JsonCommand) (s : RSession σ ν) :
    List (Message ν) :=
  match command.queryId with
  | .error _ => []
  | .ok _ => commandCopies svc command s

/-- The condition on an execution request: one reply of the session gets to
the client and none of a copy, or one of a copy and none of the session. -/
def RepliesOnce (command : JsonCommand) (s : RSession σ ν) : Prop :=
  (requestReception svc command s).Completes (requestCopies svc command s)

/-- What a command of the client has sent and put in the queue. -/
def CommandAnswered (command : JsonCommand) (s : RSession σ ν)
    (replies : List (Message ν)) (events : List Deferred) : Prop :=
  (events = [] ∧ (requestReception svc command s).Of replies) ∨
    ∃ queryId, command.queryId = .ok queryId ∧
      dispatchFailure svc command s = none ∧
      (execAnswer svc command s).Given command queryId replies events

variable {svc}

/-- A failure of the handler, caught or not, ends the request. -/
theorem answered_of_failure {command : JsonCommand} {s : RSession σ ν}
    {queryId : ℤ} {f : Failure} (hid : command.queryId = .ok queryId)
    (hfailure : dispatchFailure svc command s = some f) :
    CommandAnswered svc command s
      (if f.error.type.isRuntimeError then [commandError f.error] else [])
      [] := by
  refine Or.inl ⟨rfl, ?_⟩
  rw [requestReception, hid, hfailure]
  dsimp only
  split
  · exact oneReply_singleton rfl rfl
  · rfl

theorem requestReception_of_field {command : JsonCommand} {s : RSession σ ν}
    {e : CxxException} (hid : command.queryId = .error e) :
    requestReception svc command s = .never := by
  rw [requestReception, hid]

theorem requestReception_of_other {command : JsonCommand} {s : RSession σ ν}
    {queryId : ℤ} {f : Failure} (hid : command.queryId = .ok queryId)
    (hfailure : dispatchFailure svc command s = some f)
    (hother : ¬f.error.type.isRuntimeError = true) :
    requestReception svc command s = .never := by
  rw [requestReception, hid, hfailure]
  exact if_neg hother

/-- Whatever happens to a request, its replies and events are known. -/
theorem handleJsonStatic_answers {parser : JsonParser} {json : String}
    {command : JsonCommand} {s : RSession σ ν}
    (h : Requests svc parser json command) (hexec : IsExecution command)
    (hopen : s.isOpen = true) :
    Act.wp (handleJsonStatic svc parser json)
      (fun _ s' => ∃ replies events, Sends s s' replies events ∧
        CommandAnswered svc command s replies events)
      (fun _ _ => requestReception svc command s = .never) s := by
  have hlost : ∀ (e : CxxException) s', Sends s s' [] [] →
      requestReception svc command s = .never →
      Act.wp (if e.type.isStdException then pure ()
          else Act.throw e : Handler σ ν Unit)
        (fun _ s' => ∃ replies events, Sends s s' replies events ∧
          CommandAnswered svc command s replies events)
        (fun _ _ => requestReception svc command s = .never) s' := by
    intro e s' hsends hnever
    split
    · exact ⟨[], [], hsends, Or.inl ⟨rfl, by rw [hnever]; rfl⟩⟩
    · exact hnever
  rw [handleJsonStatic, Act.wp_tryCatch]
  apply h.rule hopen
  · intro e hid _
    exact hlost e s (Sends.refl s) (requestReception_of_field hid)
  intro queryId hid
  refine (dispatchCommand_spec svc command _).mono ?_ ?_
  · rintro _ s' ⟨hnone, -, hend⟩
    obtain ⟨replies, events, hprogress, hgiven⟩ :=
      given_of_dispatchEnd hexec hend
    have hsends := (Sends.of_progress hprogress).of_querying
    exact ⟨replies, events, hsends.querying 0,
      Or.inr ⟨queryId, hid, hnone, hgiven⟩⟩
  · rintro e s' ⟨c, hsome, hprogress, -⟩
    have hfailure : dispatchFailure svc command s = some ⟨c, e⟩ := hsome
    have hsends := (Sends.of_progress hprogress).of_querying
    rw [Caught]
    split
    next hruntime =>
      have hanswered := answered_of_failure hid hfailure (ν := ν)
      rw [if_pos hruntime] at hanswered
      exact ⟨_, _, hsends.caught e, hanswered⟩
    next hother =>
      exact hlost e s' hsends (requestReception_of_other hid hfailure hother)

theorem handleJsonStatic_copied {parser : JsonParser} {json : String}
    {command : JsonCommand} {s : RSession σ ν}
    (h : Requests svc parser json command) (hexec : IsExecution command)
    (hopen : s.isOpen = true) :
    Act.wp (handleJsonStatic svc parser json)
      (fun _ => Copied (requestCopies svc command s) s)
      (fun _ => Copied (requestCopies svc command s) s) s := by
  have hend : ∀ (e : CxxException) s',
      Copied (requestCopies svc command s) s s' →
      Act.wp (if e.type.isStdException then pure ()
          else Act.throw e : Handler σ ν Unit)
        (fun _ => Copied (requestCopies svc command s) s)
        (fun _ => Copied (requestCopies svc command s) s) s' := by
    intro e s' hcopied
    split
    · exact hcopied
    · exact hcopied
  have hclose : command.type ≠ .Close := by
    rcases hexec with htype | htype
    · simp [htype]
    · simp [htype]
  rw [handleJsonStatic, Act.wp_tryCatch]
  apply h.rule hopen
  · intro e hid _
    apply hend
    rw [requestCopies, hid]
    exact SameCopies.copied rfl
  intro queryId hid
  have hcopies : requestCopies svc command s =
      commandCopies svc command (s.querying queryId) := by
    rw [requestCopies, hid]
    rfl
  rw [hcopies] at hend ⊢
  refine (dispatchCommand_copied svc hclose (s.querying queryId)).mono ?_ ?_
  · exact fun _ _ hcopied => hcopied
  · intro e s' hcopied
    rw [Caught]
    split
    · exact hcopied
    · exact hend e s' hcopied

/-! ## Events -/

theorem handleExecComplete_sends {command : JsonCommand} {queryId : ℤ}
    {finfo : FileInfo} {s : RSession σ ν} :
    Act.wp (handleExecComplete svc command queryId finfo)
      (fun _ s' => ackFailure svc command = none ∧ ∃ replies,
        AckReplies command queryId finfo replies ∧ Sends s s' replies [])
      (fun _ _ => ackFailure svc command ≠ none) s := by
  refine (handleExecComplete_spec svc command queryId finfo s).mono ?_ ?_
  · rintro _ s' ⟨hnone, -, replies, hack, hprogress⟩
    exact ⟨hnone, replies, hack, Sends.of_progress hprogress⟩
  · rintro e s' ⟨c, hsome, -⟩
    simp [hsome]

/-- The changed variables are sent, or an error when the watcher throws a
`std::runtime_error`, or nothing. -/
theorem delta_sends {parser : JsonParser} {s : RSession σ ν}
    (hopen : s.isOpen = true) :
    Act.wp (handleDelayedCommand svc parser listVariablesDelta)
      (fun _ s' => ∃ replies, Sends s s' replies [] ∧
        (((∀ m ∈ replies, m.isAnswer = true) ∧
            svc.firstFailure (listCalls svc true) = none) ∨
          ∃ f, svc.firstFailure (listCalls svc true) = some f ∧
            f.error.type.isRuntimeError = true ∧
            replies = [commandError f.error]))
      (fun _ _ => ∃ f, svc.firstFailure (listCalls svc true) = some f ∧
        ¬f.error.type.isRuntimeError = true) s := by
  have hfailure : dispatchFailure svc deltaCommand (s.querying 0) =
      svc.firstFailure (listCalls svc true) := rfl
  rw [handleDelayedCommand]
  apply (requests_delta svc parser).rule hopen
  · intro e hid _
    cases hid
  intro queryId hid
  obtain rfl : queryId = 0 := by
    rw [queryId_deltaCommand] at hid
    exact (Except.ok.inj hid).symm
  refine (dispatchCommand_spec svc deltaCommand _).mono ?_ ?_
  · rintro _ s' ⟨hnone, -, replies, hprogress, hreplies⟩
    exact ⟨replies, (Sends.of_progress hprogress).of_querying.querying 0,
      Or.inl ⟨hreplies, hfailure ▸ hnone⟩⟩
  · rintro e s' ⟨c, hsome, hprogress, -⟩
    rw [hfailure] at hsome
    have hsends := (Sends.of_progress hprogress).of_querying
    rw [Caught]
    split
    next hruntime =>
      exact ⟨_, hsends.caught e, Or.inr ⟨_, hsome, hruntime, rfl⟩⟩
    next hother => exact ⟨_, hsome, hother⟩

/-- What the events of an answer send. -/
theorem events_conclude {parser : JsonParser} {command : JsonCommand}
    {queryId : ℤ} {finfo : FileInfo} {delta : Bool} {s : RSession σ ν}
    (hopen : s.isOpen = true) :
    Act.wp (Act.forEach (.execComplete command queryId finfo ::
        if delta then [.command listVariablesDelta] else [])
        (runDeferred svc parser))
      (fun _ s' => ∃ replies, Sends s s' replies [] ∧
        ((Answer.acknowledged delta).reception svc command).Of replies)
      (fun _ _ =>
        (Answer.acknowledged delta).reception svc command = .never) s := by
  rw [Act.forEach_cons, Act.wp_bind, runDeferred, Answer.reception]
  refine handleExecComplete_sends.mono ?_ ?_
  · rintro _ s₁ ⟨hack, replies, hreplies, hsends⟩
    rw [hack]
    cases delta with
    | false =>
        have honce := hreplies.oneReply
          (List.forall_mem_nil fun m : Message ν => m.isAnswer = true)
        rw [List.append_nil] at honce
        exact ⟨replies, hsends, honce⟩
    | true =>
        rw [if_pos rfl, if_pos rfl, Act.forEach_cons, Act.wp_bind, runDeferred]
        have hopen' : s₁.isOpen = true := hsends.isOpen.trans hopen
        refine (delta_sends hopen').mono ?_ ?_
        · rintro _ s₂ ⟨rest, hlisted, hrest⟩
          refine ⟨replies ++ rest, hsends.trans hlisted, ?_⟩
          rcases hrest with ⟨hanswers, hnone⟩ | ⟨f, hsome, hruntime, rfl⟩
          · rw [hnone]
            exact hreplies.oneReply hanswers
          · rw [hsome]
            dsimp only
            rw [if_pos hruntime]
            exact hreplies.two_terminal f.error
        · -- the session ends before it has written the acknowledgement
          rintro e s₂ ⟨f, hsome, hother⟩
          rw [hsome]
          exact if_neg hother
  · rintro e s₁ hack
    cases hfailure : ackFailure svc command with
    | none => exact absurd hfailure hack
    | some f => rfl

theorem events_sameCopies {parser : JsonParser} {command : JsonCommand}
    {queryId : ℤ} {finfo : FileInfo} {delta : Bool} {s : RSession σ ν}
    (hopen : s.isOpen = true) :
    Act.wp (Act.forEach (.execComplete command queryId finfo ::
        if delta then [.command listVariablesDelta] else [])
        (runDeferred svc parser))
      (fun _ => SameCopies s) (fun _ => SameCopies s) s := by
  have hroutine := sameCopies_commands svc
  rw [Act.forEach_cons, Act.wp_bind]
  refine ((hroutine.handleExecComplete_moves command queryId finfo s).and
    handleExecComplete_sends).mono ?_ fun _ _ hsame => hsame.1
  rintro _ s₁ ⟨hsame, -, replies, -, hsends⟩
  cases delta with
  | false => exact hsame
  | true =>
      rw [if_pos rfl, Act.forEach_cons, Act.wp_bind, runDeferred,
        handleDelayedCommand]
      have hlisting : Act.Moves SameCopies (dispatchCommand svc deltaCommand) :=
        hroutine.dispatchCommand_moves deltaCommand
          (fun htype => by cases htype) fun htype => by cases htype
      apply (requests_delta svc parser).rule (hsends.isOpen.trans hopen)
      · exact fun _ _ _ => hsame
      intro queryId' _
      refine (hlisting (s₁.querying queryId')).mono ?_ ?_
      · exact fun _ _ hlisted => hlisted.trans hsame
      · intro e s₂ hlisted
        rw [Caught]
        split
        · exact hlisted.trans hsame
        · exact hlisted.trans hsame

/-! ## Execution requests -/

/-- A text of the client, and then the events it has put in the queue.  Events
with one delay run in the order they were put there in. -/
def execute (svc : Services σ ν) (parser : JsonParser) (json : String) :
    Handler σ ν Unit := do
  let before ← Act.get
  handleJsonStatic svc parser json
  let s ← Act.get
  Act.modify fun s => { s with deferred := before.deferred }
  Act.forEach (s.deferred.drop before.deferred.length)
    (runDeferred svc parser)

/-- The rule of `execute`: the events are those behind the ones that wait
already. -/
theorem execute_rule {parser : JsonParser} {json : String} {s : RSession σ ν}
    {post : Unit → RSession σ ν → Prop}
    {exn : CxxException → RSession σ ν → Prop}
    (h : Act.wp (handleJsonStatic svc parser json)
      (fun _ s' => ∃ events, s'.deferred = s.deferred ++ events ∧
        Act.wp (Act.forEach events (runDeferred svc parser)) post exn
          { s' with deferred := s.deferred })
      exn s) :
    Act.wp (execute svc parser json) post exn s := by
  rw [execute, Act.wp_bind, Act.wp_get]
  beta_reduce
  rw [Act.wp_bind]
  refine h.mono ?_ fun _ _ hthrown => hthrown
  rintro _ s' ⟨events, hdeferred, hevents⟩
  rw [Act.wp_bind, Act.wp_get]
  beta_reduce
  rw [Act.wp_bind, Act.wp_modify, hdeferred, List.drop_left]
  exact hevents

/-- The messages sent between two states. -/
def sentBetween (s s' : RSession σ ν) : List (Message ν) :=
  s'.sent.drop s.sent.length

theorem Sends.ofSession_sentBetween {s s' : RSession σ ν}
    {replies : List (Message ν)} {events : List Deferred}
    (h : Sends s s' replies events) : ofSession (sentBetween s s') = replies := by
  obtain ⟨messages, hsent, hreplies⟩ := h.sent
  rw [sentBetween, hsent, List.drop_left, hreplies]

/-- A session whose queue has been emptied of the new events. -/
theorem Sends.dequeue {s s' : RSession σ ν} {replies : List (Message ν)}
    {events : List Deferred} (h : Sends s s' replies events) :
    Sends s { s' with deferred := s.deferred } replies [] :=
  ⟨h.isOpen, by simp, h.sent⟩

theorem execute_spec {parser : JsonParser} {json : String}
    {command : JsonCommand} {s : RSession σ ν}
    (h : Requests svc parser json command) (hexec : IsExecution command)
    (hopen : s.isOpen = true) :
    Act.wp (execute svc parser json)
      (fun _ s' => Copied (requestCopies svc command s) s s' ∧
        ∃ replies, Sends s s' replies [] ∧
          (requestReception svc command s).Of replies)
      (fun _ s' => Copied (requestCopies svc command s) s s' ∧
        requestReception svc command s = .never) s := by
  apply execute_rule
  refine ((handleJsonStatic_copied h hexec hopen).and
    (handleJsonStatic_answers h hexec hopen)).mono ?_ fun _ _ hlost => hlost
  rintro _ s₁ ⟨hcopied, replies, events, hsends, hanswered⟩
  refine ⟨events, hsends.deferred, ?_⟩
  have hempty := hsends.dequeue
  rcases hanswered with ⟨rfl, hreception⟩ | ⟨queryId, hid, hnone, hgiven⟩
  · exact ⟨hcopied, replies, hempty, hreception⟩
  have hrequest : requestReception svc command s =
      (execAnswer svc command s).reception svc command := by
    rw [requestReception, hid, hnone]
  rw [hrequest]
  cases hanswer : execAnswer svc command s with
  | silent =>
      rw [hanswer] at hgiven
      obtain ⟨rfl, rfl⟩ := hgiven
      exact ⟨hcopied, [], hempty, rfl⟩
  | replied =>
      rw [hanswer] at hgiven
      obtain ⟨⟨m, rfl, hreply⟩, rfl⟩ := hgiven
      exact ⟨hcopied, [m], hempty, hreply.oneReply⟩
  | acknowledged delta =>
      rw [hanswer] at hgiven
      obtain ⟨rfl, finfo, rfl⟩ := hgiven
      have hopen' : ({ s₁ with deferred := s.deferred } :
          RSession σ ν).isOpen = true := hsends.isOpen.trans hopen
      refine ((events_sameCopies hopen').and
        (events_conclude hopen')).mono ?_ ?_
      · rintro _ s₂ ⟨hsame, rest, hrest, hreception⟩
        exact ⟨hcopied.trans_same hsame, rest, hempty.trans hrest, hreception⟩
      · rintro _ s₂ ⟨hsame, hnever⟩
        exact ⟨hcopied.trans_same hsame, hnever⟩

/-- What the client receives: of the messages of the session, those of a pass
that came back to the loop, which then writes them, and those of its copies. -/
def received (s : RSession σ ν)
    (result : Outcome CxxException Unit × RSession σ ν) : List (Message ν) :=
  result.2.copySent.drop s.copySent.length ++
    match result.1 with
    | .returned _ => sentBetween s result.2
    | .threw _ | .undefined => []

/-- An execution request is answered by exactly one terminal message, with the
output it announces, if and only if its query id can be read, and its handler
fails with a `std::runtime_error` or gives an answer that gets to the client,
and no copy of the session answers; or a copy answers, and not the session. -/
theorem oneReply_iff_repliesOnce (svc : Services σ ν) (parser : JsonParser)
    (json : String) (command : JsonCommand) (s : RSession σ ν)
    (hrequest : Requests svc parser json command)
    (hexec : IsExecution command) (hopen : s.isOpen = true) :
    OneReply (received s (execute svc parser json s)) ↔
      RepliesOnce svc command s := by
  rcases (execute_spec hrequest hexec hopen).cases with
    ⟨_, hreturned, hcopied, replies, hsends, hreception⟩ |
      ⟨e, hthrew, hcopied, hnever⟩
  · rw [received, hreturned, hcopied.drop, ← oneReply_append_ofSession,
      hsends.ofSession_sentBetween]
    exact hreception.oneReply_append
  · rw [received, hthrew, hcopied.drop, RepliesOnce, hnever, List.append_nil,
      Reception.Completes]

/-! ## A script that does not parse -/

/-- The command of a client that runs a script. -/
def scriptCommand : JsonCommand where
  cmd := .object [("msg", .string "execScript"), ("queryId", .integer 3),
    ("argument", .string "x <- 1")]
  type := .ExecScript

/-- The parser of that client. -/
def scriptParser : JsonParser :=
  .ofTexts [("script", scriptCommand.cmd)]

theorem requests_script (svc : Services σ ν) :
    Requests svc scriptParser "script" scriptCommand where
  nonempty := by decide
  parses := ⟨_, rfl, rfl⟩
  type_ne := by decide

theorem oneReply_iff_repliesOnce_script :
    OneReply (received (RSession.fresh ()).opened
      (execute (.succeeding () : Services Unit Unit) scriptParser "script"
        (RSession.fresh ()).opened)) := by
  apply (oneReply_iff_repliesOnce _ scriptParser "script" scriptCommand _
    (requests_script _) (Or.inl rfl) rfl).mpr
  rfl

/-- Services that evaluate no script: R cannot parse it. -/
def parseErrors : Services Unit Unit :=
  { Services.succeeding () with parseResult := .PE_ERROR }

/-- A script with a parse error gets no reply at all. -/
theorem oneReply_fails_on_parse_error :
    ¬OneReply (received (RSession.fresh ()).opened
      (execute parseErrors scriptParser "script"
        (RSession.fresh ()).opened)) := by
  intro h
  have hterminal := h.terminal
  revert hterminal
  decide

end Rc2Compute.Session
