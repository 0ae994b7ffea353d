import Rc2Compute.Session.Replies
import Rc2Compute.Support.Transition

/-!
# Messages and the commands that cause them

A conversation is a session with the events of its queue and with everything
it has sent, each with the command that caused it.  The texts of the client
and the events of the queue are handled in any order.  `Correlated` says that
a message carries the query id and the client data of its own command.
-/

namespace Rc2Compute.Session

open Files (FileInfo)

variable {σ ν : Type}

/-! ## Causes -/

/-- The query id of a command, if it is a positive integer. -/
def JsonCommand.ownId (command : JsonCommand) : Option ℤ :=
  match command.cmd.find? "queryId" with
  | some (.integer n) => queryIdField n
  | _ => none

/-- The cause of what a text that is no command leads to. -/
def noCommand : JsonCommand := ⟨.null, .Unknown⟩

/-- The command of a document. -/
def commandOf (svc : Services σ ν) (doc : Json) : JsonCommand :=
  match JsonCommand.ofJson svc.uninitialised doc with
  | .ok command => command
  | .error _ => noCommand

/-- The command of a text. -/
def causeOf (svc : Services σ ν) (parser : JsonParser) (json : String) :
    JsonCommand :=
  match parser.parse json with
  | .parsed doc => commandOf svc doc
  | .invalidArgument | .otherException => noCommand

namespace Message

def isError : Message ν → Bool
  | .error _ _ _ => true
  | _ => false

/-- The field `clientData` of an `execComplete`. -/
def ackClientData : Message ν → Option (Option Json)
  | .execComplete _ _ clientData _ _ _ => some clientData
  | _ => none

end Message

/-- A message carries no query id but that of its command, which an error
always carries, and an `execComplete` carries the client data of its
command. -/
structure Correlated (m : Message ν) (command : JsonCommand) : Prop where
  queryId : ∀ id ∈ m.queryId, command.ownId = some id
  error : m.isError = true → m.queryId = command.ownId
  clientData : ∀ data ∈ m.ackClientData,
    data = command.cmd.find? "clientData"

section Correlated

variable {m : Message ν} {command : JsonCommand} {queryId : ℤ}

theorem Correlated.of_isReply (h : m.IsReply queryId)
    (hid : queryIdField queryId = command.ownId) : Correlated m command where
  queryId := by
    intro id hm
    rw [h.queryId, hid] at hm
    exact hm
  error := fun _ => h.queryId.trans hid
  clientData := by
    intro data hdata
    have hexpected := h.expectShowOutput
    cases m with
    | execComplete => cases hexpected
    | _ => cases hdata

theorem Correlated.of_isAnswer (h : m.isAnswer = true) :
    Correlated m command := by
  cases m with
  | variableupdate | variablevalue | help | openresponse =>
      constructor
      · intro id hid
        cases hid
      · intro herror
        cases herror
      · intro data hdata
        cases hdata
  | _ => cases h

/-- What R writes carries the query id it is written under. -/
theorem Correlated.of_console (hconsole : m.fromConsole = true)
    (hqueryId : m.queryId = queryIdField queryId)
    (hid : ∀ id ∈ queryIdField queryId, command.ownId = some id) :
    Correlated m command where
  queryId := fun id hm => hid id (hqueryId ▸ hm)
  error := by
    intro herror
    cases m with
    | error => cases hconsole
    | _ => cases herror
  clientData := by
    intro data hdata
    cases m with
    | execComplete => cases hconsole
    | _ => cases hdata

/-- The error of the catch clause carries the query id 1. -/
theorem Correlated.of_commandError (e : CxxException)
    (h : command.ownId = some 1) :
    Correlated (commandError e : Message ν) command where
  queryId := by
    intro id hid
    have hone : (1 : ℤ) = id := Option.some.inj hid
    rw [h, hone]
  error := fun _ => h.symm
  clientData := by
    intro data hdata
    cases hdata

end Correlated

/-- A command that carries client data, other than null. -/
def HasClientData (command : JsonCommand) : Prop :=
  ∃ data, command.cmd.find? "clientData" = some data ∧
    clientDataField data = some data

theorem HasClientData.carried {command : JsonCommand}
    (h : HasClientData command) :
    clientDataField command.clientData = command.cmd.find? "clientData" := by
  obtain ⟨data, hfind, hdata⟩ := h
  rw [JsonCommand.clientData, hfind]
  exact hdata

theorem AckReplies.correlated {command : JsonCommand} {queryId : ℤ}
    {finfo : FileInfo} {replies : List (Message ν)}
    (h : AckReplies command queryId finfo replies)
    (hid : queryIdField queryId = command.ownId)
    (hdata : HasClientData command) : ∀ m ∈ replies, Correlated m command := by
  obtain ⟨startTime, images, imgBatch, file, rfl⟩ := h
  intro m hm
  rcases List.mem_cons.mp hm with rfl | hm
  · constructor
    · intro id hm
      exact hid ▸ hm
    · intro herror
      cases herror
    · intro data hcarried
      exact (Option.some.inj hcarried).symm.trans hdata.carried
  · split at hm
    · obtain rfl := List.mem_singleton.mp hm
      constructor
      · intro id hid
        cases hid
      · intro herror
        cases herror
      · intro data hdata
        cases hdata
    · cases hm

/-- The events a command puts in the queue. -/
def EventOf (command : JsonCommand) : Deferred → Prop
  | .execComplete command' queryId _ =>
      command' = command ∧ queryIdField queryId = command.ownId
  | .command json => json = listVariablesDelta

/-! ## What a callback leaves -/

/-- A session before a callback: nothing sent or put in the queue that has not
been collected, and no query under way unless the session is open. -/
structure Ready (s : RSession σ ν) : Prop where
  closed : s.isOpen = false → s.currentQueryId = 0
  sent : s.sent = []
  deferred : s.deferred = []

/-- A session after a callback for `command`. -/
structure Attributes (command : JsonCommand) (s : RSession σ ν) : Prop where
  closed : s.isOpen = false → s.currentQueryId = 0
  sent : ∀ m ∈ s.sent, Correlated m command
  deferred : ∀ event ∈ s.deferred, EventOf command event

namespace Attributes

variable {command : JsonCommand} {s s' : RSession σ ν}

theorem of_ready (h : Ready s) : Attributes command s where
  closed := h.closed
  sent := by simp [h.sent]
  deferred := by simp [h.deferred]

theorem of_progress {replies : List (Message ν)} {events : List Deferred}
    (h : Progress s s' replies events) (hs : Ready s)
    (hid : ∀ id ∈ queryIdField s.currentQueryId, command.ownId = some id)
    (hreplies : ∀ m ∈ replies, Correlated m command)
    (hevents : ∀ event ∈ events, EventOf command event) :
    Attributes command s' where
  closed := by
    intro hclosed
    rw [h.currentQueryId]
    exact hs.closed (h.isOpen ▸ hclosed)
  sent := by
    obtain ⟨messages, hsent, hfilter, htag⟩ := h.sent
    rw [hsent, hs.sent, List.nil_append]
    intro m hm
    cases hconsole : m.fromConsole with
    | true => exact Correlated.of_console hconsole (htag m hm hconsole) hid
    | false =>
        apply hreplies
        rw [← hfilter, List.mem_filter]
        exact ⟨hm, by simp [hconsole]⟩
  deferred := by
    rw [h.deferred, hs.deferred, List.nil_append]
    exact hevents

theorem querying (h : Attributes command s) :
    Attributes command (s.querying 0) :=
  ⟨fun _ => rfl, h.sent, h.deferred⟩

theorem opened (h : Attributes command s) : Attributes command s.opened where
  closed := by
    intro hclosed
    cases hclosed
  sent := h.sent
  deferred := h.deferred

theorem sending {m : Message ν} (h : Attributes command s)
    (hm : Correlated m command) : Attributes command (s.sending m) where
  closed := h.closed
  sent := by
    intro m' hm'
    rcases List.mem_append.mp hm' with hm' | hm'
    · exact h.sent m' hm'
    · obtain rfl := List.mem_singleton.mp hm'
      exact hm
  deferred := h.deferred

end Attributes

theorem Ready.querying {s : RSession σ ν} (h : Ready s)
    (hopen : s.isOpen = true) (queryId : ℤ) : Ready (s.querying queryId) where
  closed := by
    intro hclosed
    have hfalse : s.isOpen = false := hclosed
    rw [hopen] at hfalse
    cases hfalse
  sent := h.sent
  deferred := h.deferred

/-! ## Texts -/

/-- What any command has sent and put in the queue when its handler
returns. -/
theorem progress_of_dispatchEnd {svc : Services σ ν} {command : JsonCommand}
    {queryId : ℤ} {s s' : RSession σ ν}
    (h : DispatchEnd svc command (s.querying queryId) s') :
    ∃ replies events, Progress (s.querying queryId) s' replies events ∧
      (∀ m ∈ replies, m.IsReply queryId ∨ m.isAnswer = true) ∧
      ∀ event ∈ events, (∃ finfo,
        event = .execComplete command queryId finfo) ∨
          event = .command listVariablesDelta := by
  by_cases hexec : IsExecution command
  · obtain ⟨replies, events, hprogress, hgiven⟩ :=
      given_of_dispatchEnd hexec h
    refine ⟨replies, events, hprogress, ?_⟩
    cases hanswer : execAnswer svc command s with
    | silent =>
        rw [hanswer] at hgiven
        obtain ⟨rfl, rfl⟩ := hgiven
        simp
    | replied =>
        rw [hanswer] at hgiven
        obtain ⟨⟨m, rfl, hreply⟩, rfl⟩ := hgiven
        simp [hreply]
    | acknowledged delta =>
        rw [hanswer] at hgiven
        obtain ⟨rfl, finfo, rfl⟩ := hgiven
        cases delta with
        | true => simp
        | false => simp
  · have hanswers : Answers (s.querying queryId) s' := by
      rw [DispatchEnd] at h
      cases htype : command.type with
      | ExecScript => exact absurd (Or.inl htype) hexec
      | ExecFile => exact absurd (Or.inr htype) hexec
      | _ =>
          rw [htype] at h
          exact h
    obtain ⟨replies, hprogress, hreplies⟩ := hanswers
    exact ⟨replies, [], hprogress, fun m hm => Or.inr (hreplies m hm), by simp⟩

variable (svc : Services σ ν)

/-- The condition on a command of an open session: the query id it is handled
under is its own, and a `std::runtime_error` is thrown only under the id 1. -/
def CommandCorrelates (command : JsonCommand) (s : RSession σ ν) : Prop :=
  ∀ queryId, command.queryId = .ok queryId →
    queryIdField queryId = command.ownId ∧
      ∀ f ∈ dispatchFailure svc command s,
        f.error.type.isRuntimeError = true → command.ownId = some 1

variable {svc}

theorem dispatchCommand_attributes {command : JsonCommand} {queryId : ℤ}
    {s : RSession σ ν} (hs : Ready s) (hopen : s.isOpen = true)
    (hid : command.queryId = .ok queryId)
    (hcommand : CommandCorrelates svc command s) :
    Act.wp (dispatchCommand svc command)
      (fun _ s' => Attributes command (s'.querying 0))
      (Caught (fun _ => Attributes command) (fun _ => Attributes command))
      (s.querying queryId) := by
  obtain ⟨hown, hruntime⟩ := hcommand queryId hid
  have hready := hs.querying hopen queryId
  have htag : ∀ id ∈ queryIdField (s.querying queryId).currentQueryId,
      command.ownId = some id := fun id h => hown ▸ h
  refine (dispatchCommand_spec svc command _).mono ?_ ?_
  · rintro _ s' ⟨-, -, hend⟩
    obtain ⟨replies, events, hprogress, hreplies, hevents⟩ :=
      progress_of_dispatchEnd hend
    apply Attributes.querying
    apply Attributes.of_progress hprogress hready htag
    · intro m hm
      rcases hreplies m hm with h | h
      · exact Correlated.of_isReply h hown
      · exact Correlated.of_isAnswer h
    · intro event hevent
      rcases hevents event hevent with ⟨finfo, rfl⟩ | rfl
      · exact ⟨rfl, hown⟩
      · exact rfl
  · rintro e s' ⟨c, hsome, hprogress, -⟩
    have hfailure : dispatchFailure svc command s = some ⟨c, e⟩ := hsome
    have hthrown : Attributes command s' :=
      Attributes.of_progress hprogress hready htag (by simp) (by simp)
    rw [Caught]
    split
    next h =>
      have hone := hruntime _ hfailure h
      exact (hthrown.sending (Correlated.of_commandError e hone)).querying
    next => exact hthrown

theorem handleOpenCommand_attributes {command : JsonCommand}
    {s : RSession σ ν} (hs : Ready s) (hopen : s.isOpen = false) :
    Act.wp (handleOpenCommand svc command)
      (fun _ s' => Attributes command (s'.querying 0))
      (Caught (fun _ => Attributes command) (fun _ => Attributes command))
      s := by
  have htag : ∀ id ∈ queryIdField s.currentQueryId,
      command.ownId = some id := by
    rw [hs.closed hopen]
    intro id hid
    cases hid
  refine (handleOpenCommand_spec svc command hopen).mono ?_ ?_
  · rintro _ s' ⟨-, s₁, ⟨replies, hprogress, hreplies⟩, hend⟩
    have hattributes : Attributes command s₁ :=
      Attributes.of_progress hprogress hs htag
        (fun m hm => Correlated.of_isAnswer (hreplies m hm)) (by simp)
    rcases hend with rfl | rfl
    · exact hattributes.querying
    · exact hattributes.opened.querying
  · rintro e s' ⟨c, -, hother, hprogress, -⟩
    rw [Caught, if_neg hother]
    exact Attributes.of_progress hprogress hs htag (by simp) (by simp)

variable (svc)

/-- The condition on a text: the condition on its command, where there is an
open session to handle it. -/
def TextCorrelates (parser : JsonParser) (json : String) (s : RSession σ ν) :
    Prop :=
  s.isOpen = true → (causeOf svc parser json).type ≠ .Open →
    CommandCorrelates svc (causeOf svc parser json) s

variable {svc}

theorem handleDocument_attributes {doc : Json} {s : RSession σ ν}
    (hs : Ready s)
    (hcommand : s.isOpen = true → (commandOf svc doc).type ≠ .Open →
      CommandCorrelates svc (commandOf svc doc) s) :
    Act.wp (handleDocument svc doc)
      (fun _ => Attributes (commandOf svc doc))
      (fun _ => Attributes (commandOf svc doc)) s := by
  have hof : ∀ {command}, JsonCommand.ofJson svc.uninitialised doc =
      .ok command → commandOf svc doc = command := by
    intro command hjson
    rw [commandOf, hjson]
  apply handleDocument_rule
  · intro e _ _
    exact Attributes.of_ready hs
  · intro command _ _ _
    exact Attributes.of_ready hs
  · intro command hjson _ hopen
    rw [hof hjson]
    exact handleOpenCommand_attributes hs hopen
  · intro _ _ _ _
    exact (Attributes.of_ready hs).querying
  · intro command e _ _ _ _ _
    exact Attributes.of_ready hs
  · intro command queryId hjson htype hopen hid
    rw [hof hjson] at hcommand ⊢
    exact dispatchCommand_attributes hs hopen hid (hcommand hopen htype)

theorem handleJsonStatic_attributes {parser : JsonParser} {json : String}
    {s : RSession σ ν} (hs : Ready s)
    (htext : TextCorrelates svc parser json s) :
    Attributes (causeOf svc parser json)
      (handleJsonStatic svc parser json s).2 := by
  have hnull : Act.wp (handleDocument svc .null)
      (fun _ => Attributes noCommand) (fun _ => Attributes noCommand) s := by
    have hnone : s.isOpen = true → (commandOf svc .null).type ≠ .Open →
        CommandCorrelates svc (commandOf svc .null) s := by
      intro _ _ queryId hid
      cases hid
    exact handleDocument_attributes hs hnone
  have hcommand : Act.wp (handleJsonCommand svc parser json)
      (fun _ => Attributes (causeOf svc parser json))
      (fun _ => Attributes (causeOf svc parser json)) s := by
    rw [handleJsonCommand]
    split
    next => exact Attributes.of_ready hs
    next =>
      rw [TextCorrelates] at htext
      cases hparse : parser.parse json with
      | invalidArgument => exact Attributes.of_ready hs
      | otherException =>
          rw [causeOf, hparse]
          exact hnull
      | parsed doc =>
          rw [causeOf, hparse] at htext ⊢
          exact handleDocument_attributes hs htext
  have hstatic : Act.wp (handleJsonStatic svc parser json)
      (fun _ => Attributes (causeOf svc parser json))
      (fun _ => Attributes (causeOf svc parser json)) s := by
    rw [handleJsonStatic, Act.wp_tryCatch]
    refine hcommand.mono (fun _ _ h => h) ?_
    intro e s' h
    split
    · exact h
    · exact h
  exact hstatic.final

/-! ## Events -/

/-- The file manager writes nothing to the console. -/
theorem sent_called_of_silent (svc : Services σ ν) {c : Call} (hc : c.runsR = false)
    (s : RSession σ ν) : (s.called svc c).sent = s.sent := by
  simp [RSession.errorsSent, svc.output_eq_nil c hc]

/-- An acknowledgement sends nothing R wrote. -/
theorem handleExecComplete_sent {command : JsonCommand} {queryId : ℤ}
    {finfo : FileInfo} {s : RSession σ ν} :
    Act.wp (handleExecComplete svc command queryId finfo)
      (fun _ s' => ∃ replies, AckReplies command queryId finfo replies ∧
        s'.sent = s.sent ++ replies)
      (fun _ s' => s'.sent = s.sent) s := by
  have hsent := sent_called_of_silent svc (c := .cleanupImageWatch) rfl s
  rw [handleExecComplete, Act.wp_bind, acknowledgeExecComplete]
  apply call_rule
  · intro e _
    exact hsent
  intro _
  apply read_rule
  · intro e _
    exact hsent
  intro startTime _
  rw [Act.wp_bind, Act.wp_get]
  dsimp only
  rw [Act.wp_pure, Act.wp_bind, wp_sendJsonToClientSource, Act.wp_bind,
    Act.wp_get]
  beta_reduce
  split
  next hfile =>
    rw [wp_sendJsonToClientSource]
    refine ⟨_, ?_, (congrArg (· ++ _ ++ _) hsent).trans
      (List.append_assoc _ _ _)⟩
    exact ⟨startTime, _, _, _, by rw [if_pos hfile]; rfl⟩
  next hfile =>
    refine ⟨_, ?_, congrArg (· ++ _) hsent⟩
    exact ⟨startTime, _, _, finfo, by rw [if_neg hfile]⟩

variable (svc)

/-- The condition on an event of the queue: a command that is acknowledged has
client data, and the changed variables are listed without a
`std::runtime_error` unless the id of the command is 1. -/
def EventCorrelates (command : JsonCommand) : Deferred → Prop
  | .execComplete _ _ _ =>
      ackFailure svc command = none → HasClientData command
  | .command _ =>
      ∀ f ∈ svc.firstFailure (listCalls svc true),
        f.error.type.isRuntimeError = true → command.ownId = some 1

variable {svc}

theorem handleExecComplete_attributes {command : JsonCommand} {queryId : ℤ}
    {finfo : FileInfo} {s : RSession σ ν} (hs : Ready s)
    (hid : queryIdField queryId = command.ownId)
    (hdata : ackFailure svc command = none → HasClientData command) :
    Attributes command (handleExecComplete svc command queryId finfo s).2 := by
  have hspec := (handleExecComplete_spec svc command queryId finfo s).and
    (handleExecComplete_sent (s := s))
  have hkeeps : ∀ {s' replies}, Progress s s' replies [] →
      (∀ m ∈ s'.sent, Correlated m command) → Attributes command s' := by
    intro s' replies hprogress hsent
    constructor
    · intro hclosed
      rw [hprogress.currentQueryId]
      exact hs.closed (hprogress.isOpen ▸ hclosed)
    · exact hsent
    · rw [hprogress.deferred, hs.deferred]
      simp
  have hattributes : Act.wp (handleExecComplete svc command queryId finfo)
      (fun _ => Attributes command) (fun _ => Attributes command) s := by
    refine hspec.mono ?_ ?_
    · rintro _ s' ⟨⟨hnone, -, replies, -, hprogress⟩, replies', hack, hsent⟩
      apply hkeeps hprogress
      rw [hsent, hs.sent, List.nil_append]
      exact hack.correlated hid (hdata hnone)
    · rintro e s' ⟨⟨c, -, hprogress, -⟩, hsent⟩
      apply hkeeps hprogress
      rw [hsent, hs.sent]
      simp
  exact hattributes.final

/-- The changed variables are listed under no query. -/
theorem delta_attributes {parser : JsonParser} {command : JsonCommand}
    {s : RSession σ ν} (hs : Ready s)
    (hruntime : ∀ f ∈ svc.firstFailure (listCalls svc true),
      f.error.type.isRuntimeError = true → command.ownId = some 1) :
    Attributes command
      (handleDelayedCommand svc parser listVariablesDelta s).2 := by
  have hdispatch : s.isOpen = true →
      Act.wp (dispatchCommand svc deltaCommand)
        (fun _ s' => Attributes command (s'.querying 0))
        (Caught (fun _ => Attributes command) (fun _ => Attributes command))
        (s.querying 0) := by
    intro hopen
    have hready := hs.querying hopen 0
    have htag : ∀ id ∈ queryIdField (s.querying 0).currentQueryId,
        command.ownId = some id := by
      intro id hid
      cases hid
    refine (dispatchCommand_spec svc deltaCommand _).mono ?_ ?_
    · rintro _ s' ⟨-, -, replies, hprogress, hreplies⟩
      apply Attributes.querying
      exact Attributes.of_progress hprogress hready htag
        (fun m hm => Correlated.of_isAnswer (hreplies m hm)) (by simp)
    · rintro e s' ⟨c, hsome, hprogress, -⟩
      have hfailure : svc.firstFailure (listCalls svc true) =
          some ⟨c, e⟩ := hsome
      have hthrown : Attributes command s' :=
        Attributes.of_progress hprogress hready htag (by simp) (by simp)
      rw [Caught]
      split
      next h =>
        have hone := hruntime _ hfailure h
        exact (hthrown.sending (Correlated.of_commandError e hone)).querying
      next => exact hthrown
  have hdelta : Act.wp (handleDelayedCommand svc parser listVariablesDelta)
      (fun _ => Attributes command) (fun _ => Attributes command) s := by
    rw [handleDelayedCommand, handleJsonCommand, if_neg (by decide),
      parser.parse_delta]
    apply handleDocument_rule
    · intro e hbad _
      cases hbad
    · intro command' _ _ _
      exact Attributes.of_ready hs
    · intro command' hjson htype _
      obtain rfl := Except.ok.inj hjson
      cases htype
    · intro _ _ _ _
      exact (Attributes.of_ready hs).querying
    · intro command' e _ _ _ _ _
      exact Attributes.of_ready hs
    · intro command' queryId hjson _ hopen hid
      obtain rfl := Except.ok.inj hjson
      obtain rfl := Except.ok.inj hid
      exact hdispatch hopen
  exact hdelta.final

/-! ## Conversations -/

/-- A session with the events waiting in its queue and the messages it has
sent, each with the command that caused it. -/
structure Conversation (σ ν : Type) where
  session : RSession σ ν
  pending : List (Deferred × JsonCommand)
  log : List (Message ν × JsonCommand)

/-- A callback of the loop: a text of the client, or an event of the queue. -/
inductive Turn (σ ν : Type) where
  | text (svc : Services σ ν) (json : String)
  | event (svc : Services σ ν) (index : ℕ)

namespace Conversation

def fresh (outer : σ) : Conversation σ ν := ⟨RSession.fresh outer, [], []⟩

/-- What a callback for `command` has sent and put in the queue is taken from
the session. -/
def collect (c : Conversation σ ν) (command : JsonCommand)
    (pending : List (Deferred × JsonCommand)) (s : RSession σ ν) :
    Conversation σ ν where
  session := { s with sent := [], deferred := [] }
  pending := pending ++ s.deferred.map fun event => (event, command)
  log := c.log ++ s.sent.map fun m => (m, command)

/-- One callback.  An event is caused by the command that put it in the
queue. -/
def step (parser : JsonParser) (c : Conversation σ ν) :
    Turn σ ν → Conversation σ ν
  | .text svc json =>
      c.collect (causeOf svc parser json) c.pending
        (handleJsonStatic svc parser json c.session).2
  | .event svc index =>
      match c.pending[index]? with
      | none => c
      | some (event, command) =>
          c.collect command (c.pending.eraseIdx index)
            (runDeferred svc parser event c.session).2

/-- The condition on a callback. -/
def TurnCorrelates (parser : JsonParser) (c : Conversation σ ν) :
    Turn σ ν → Prop
  | .text svc json => TextCorrelates svc parser json c.session
  | .event svc index =>
      ∀ p ∈ c.pending[index]?, EventCorrelates svc p.2 p.1

/-- The events of the queue are those of their commands, and every message
sent so far belongs to its command. -/
structure Attributed (c : Conversation σ ν) : Prop where
  ready : Ready c.session
  pending : ∀ p ∈ c.pending, EventOf p.2 p.1
  log : ∀ p ∈ c.log, Correlated p.1 p.2

theorem attributed_fresh (outer : σ) :
    (fresh outer : Conversation σ ν).Attributed where
  ready := ⟨fun _ => rfl, rfl, rfl⟩
  pending := by simp [fresh]
  log := by simp [fresh]

theorem Attributed.collect {c : Conversation σ ν} {command : JsonCommand}
    {pending : List (Deferred × JsonCommand)} {s : RSession σ ν}
    (h : c.Attributed) (hpending : pending ⊆ c.pending)
    (hs : Attributes command s) : (c.collect command pending s).Attributed where
  ready := ⟨hs.closed, rfl, rfl⟩
  pending := by
    intro p hp
    rcases List.mem_append.mp hp with hp | hp
    · exact h.pending p (hpending hp)
    · obtain ⟨event, hevent, rfl⟩ := List.mem_map.mp hp
      exact hs.deferred event hevent
  log := by
    intro p hp
    rcases List.mem_append.mp hp with hp | hp
    · exact h.log p hp
    · obtain ⟨m, hm, rfl⟩ := List.mem_map.mp hp
      exact hs.sent m hm

theorem Attributed.step {parser : JsonParser} {c : Conversation σ ν}
    {turn : Turn σ ν} (h : c.Attributed)
    (hturn : TurnCorrelates parser c turn) :
    (c.step parser turn).Attributed := by
  cases turn with
  | text svc json =>
      exact h.collect (fun _ hp => hp)
        (handleJsonStatic_attributes h.ready hturn)
  | event svc index =>
      rw [Conversation.step]
      rw [TurnCorrelates] at hturn
      cases hevent : c.pending[index]? with
      | none => exact h
      | some p =>
          obtain ⟨event, command⟩ := p
          have hcorrelates : EventCorrelates svc command event :=
            hturn _ hevent
          have hof : EventOf command event :=
            h.pending _ (List.mem_of_getElem? hevent)
          apply h.collect (List.eraseIdx_subset ..)
          cases event with
          | execComplete command' queryId finfo =>
              obtain ⟨rfl, hid⟩ := hof
              exact handleExecComplete_attributes h.ready hid hcorrelates
          | command json =>
              have hjson : json = listVariablesDelta := hof
              rw [hjson]
              exact delta_attributes h.ready hcorrelates

end Conversation

/-- In every run whose callbacks meet the condition, every message sent belongs
to the command that caused it. -/
theorem correlated_of_turnCorrelates (parser : JsonParser) (outer : σ)
    (turns : List (Turn σ ν))
    (hturns : Transition.Along (Conversation.step parser)
      (Conversation.TurnCorrelates parser) (Conversation.fresh outer) turns) :
    ∀ p ∈ (Transition.run (Conversation.step parser)
      (Conversation.fresh outer) turns).log, Correlated p.1 p.2 :=
  (Transition.run_invariant (fun _ _ h hturn => h.step hturn)
    (Conversation.attributed_fresh outer) hturns).log

/-! ## Scripts with and without client data -/

/-- A script with client data. -/
def taggedCommand : JsonCommand where
  cmd := .object [("msg", .string "execScript"), ("queryId", .integer 3),
    ("argument", .string "x <- 1"), ("clientData", .integer 8)]
  type := .ExecScript

/-- The parser of a client that opens a session and runs scripts. -/
def chatParser : JsonParser :=
  .ofTexts [
    ("open", .object [("msg", .string "open"), ("wspaceId", .integer 1),
      ("sessionRecId", .integer 1)]),
    ("script", scriptCommand.cmd), ("tagged", taggedCommand.cmd)]

theorem turnCorrelates_tagged :
    Transition.Along (Conversation.step chatParser)
      (Conversation.TurnCorrelates chatParser) (Conversation.fresh ())
      [.text (.succeeding () : Services Unit Unit) "open",
        .text (.succeeding ()) "tagged", .event (.succeeding ()) 0] := by
  refine ⟨?_, ?_, ?_, trivial⟩
  · intro _ htype
    exact absurd rfl htype
  · intro _ _ queryId hid
    obtain rfl := Except.ok.inj hid
    refine ⟨rfl, fun f hf => ?_⟩
    have hnone : none = some f := hf
    cases hnone
  · intro p hp
    obtain rfl := Option.some.inj hp
    exact fun _ => ⟨.integer 8, rfl, rfl⟩

theorem correlated_of_turnCorrelates_tagged :
    (Transition.run (Conversation.step chatParser) (Conversation.fresh ())
      [.text (.succeeding () : Services Unit Unit) "open",
        .text (.succeeding ()) "tagged", .event (.succeeding ()) 0]).log.Forall
      fun p => Correlated p.1 p.2 :=
  List.forall_iff_forall_mem.mpr
    (correlated_of_turnCorrelates chatParser () _ turnCorrelates_tagged)

/-- Services whose scripts make `parseEvalR` throw. -/
def throwingScripts : Services Unit Unit :=
  { Services.succeeding () with
    throws := fun c =>
      if c = .parseEvalR "x <- 1" then some ⟨.runtimeError, "lost"⟩
      else none }

/-- The error of the script with query id 3 carries the id 1. -/
theorem correlated_fails_on_caught_error :
    ¬∀ p ∈ (Transition.run (Conversation.step chatParser)
      (Conversation.fresh ())
      [.text throwingScripts "open", .text throwingScripts "script"]).log,
      Correlated p.1 p.2 := by
  intro h
  have hmem : (Message.error 104 "lost" (some 1), scriptCommand) ∈
      (Transition.run (Conversation.step chatParser)
        (Conversation.fresh ())
        [.text throwingScripts "open",
          .text throwingScripts "script"]).log :=
    List.mem_cons_of_mem _ List.mem_cons_self
  have hid := (h _ hmem).queryId 1 rfl
  revert hid
  decide

end Rc2Compute.Session
