import Rc2Compute.Session.Correlation
import Rc2Compute.Session.Routine

/-!
# Opening a session

A session answers an `open` command with one `openresponse`, and takes no
other command before one of them says that it has succeeded.  The steps of
opening throw exceptions of several types, and only those derived from
`std::runtime_error` are turned into a response.
-/

namespace Rc2Compute.Session

variable {σ ν : Type}

/-- The field `success` of an `openresponse`. -/
def Message.openSuccess : Message ν → Option Bool
  | .openresponse success _ => some success
  | _ => none

/-- The answers to `open` commands, in order. -/
def openAnswers (messages : List (Message ν)) : List Bool :=
  messages.filterMap Message.openSuccess

@[simp] theorem openAnswers_append (messages rest : List (Message ν)) :
    openAnswers (messages ++ rest) =
      openAnswers messages ++ openAnswers rest :=
  List.filterMap_append

/-- What R writes is no answer. -/
theorem openAnswers_console {messages : List (Message ν)}
    (h : ∀ m ∈ messages, m.fromConsole = true) : openAnswers messages = [] := by
  apply List.filterMap_eq_nil_iff.mpr
  intro m hm
  have hconsole := h m hm
  match m with
  | .results _ _ _ _ => rfl
  | .openresponse _ _ => cases hconsole
  | .error _ _ _ | .execComplete _ _ _ _ _ _ | .showoutput _
  | .variableupdate _ _ _ | .variablevalue _ _ _ | .help _ _ => rfl

/-- The answers are among what the session itself sends. -/
theorem openAnswers_ofSession (messages : List (Message ν)) :
    openAnswers (messages.filter fun m => !m.fromConsole) =
      openAnswers messages := by
  induction messages with
  | nil => rfl
  | cons m rest ih =>
      have hcons : openAnswers (m :: rest) =
          openAnswers [m] ++ openAnswers rest := openAnswers_append [m] rest
      rw [hcons, ← ih]
      cases hm : m.fromConsole with
      | true =>
          have hnone : openAnswers [m] = [] :=
            openAnswers_console (by simpa using hm)
          rw [List.filter_cons_of_neg (by simp [hm]), hnone, List.nil_append]
      | false =>
          rw [List.filter_cons_of_pos (by simp [hm])]
          exact openAnswers_append [m] _

/-- What a handler has sent of its own. -/
theorem Progress.openAnswers_eq {s s' : RSession σ ν}
    {replies : List (Message ν)} {events : List Deferred}
    (h : Progress s s' replies events) :
    openAnswers s'.sent = openAnswers s.sent ++ openAnswers replies := by
  obtain ⟨messages, hsent, hreplies, -⟩ := h.sent
  rw [hsent, openAnswers_append, ← hreplies, openAnswers_ofSession]

/-! ## What is no business of the other handlers -/

/-- The session is as open as before, and no `open` command has been
answered. -/
structure SameOpening (s s' : RSession σ ν) : Prop where
  isOpen : s'.isOpen = s.isOpen
  answers : openAnswers s'.sent = openAnswers s.sent

namespace SameOpening

instance : Std.Refl (SameOpening (σ := σ) (ν := ν)) where
  refl _ := ⟨rfl, rfl⟩

instance : IsTrans (RSession σ ν) SameOpening where
  trans _ _ _ hab hbc :=
    ⟨hbc.isOpen.trans hab.isOpen, hbc.answers.trans hab.answers⟩

theorem of_progress {s s' : RSession σ ν} {events : List Deferred}
    (h : Progress s s' [] events) : SameOpening s s' where
  isOpen := h.isOpen
  answers := by
    rw [h.openAnswers_eq]
    exact List.append_nil _

theorem sending {json : Message ν} (h : json.openSuccess = none)
    (s : RSession σ ν) : SameOpening s (s.sending json) where
  isOpen := rfl
  answers := by
    rw [RSession.sending_sent, openAnswers_append, openAnswers,
      openAnswers, List.filterMap_cons_none h]
    exact List.append_nil _

end SameOpening

section Handlers

variable (svc : Services σ ν)

theorem called_sameOpening (c : Call) (s : RSession σ ν) :
    SameOpening s (s.called svc c) :=
  SameOpening.of_progress (Progress.called svc c s)

/-- The messages of an execution answer no `open` command. -/
theorem Message.openSuccess_of_ofExecution {m : Message ν}
    (h : m.ofExecution = true) : m.openSuccess = none := by
  match m with
  | .openresponse _ _ => cases h
  | .results _ _ _ _ | .error _ _ _ | .execComplete _ _ _ _ _ _
  | .showoutput _ | .variableupdate _ _ _ | .variablevalue _ _ _
  | .help _ _ => rfl

theorem Message.openSuccess_of_ofInspection {m : Message ν}
    (h : m.ofInspection = true) : m.openSuccess = none := by
  match m with
  | .openresponse _ _ => cases h
  | .results _ _ _ _ | .error _ _ _ | .execComplete _ _ _ _ _ _
  | .showoutput _ | .variableupdate _ _ _ | .variablevalue _ _ _
  | .help _ _ => rfl

theorem sameOpening_commands : CommandRoutine svc SameOpening where
  called c _ s := called_sameOpening svc c s
  sending _ hm s := SameOpening.sending (Message.openSuccess_of_ofExecution hm) s
  bufferFlushed isError s :=
    SameOpening.of_progress (Progress.bufferFlushed isError s)
  ignoring b s := SameOpening.of_progress (Progress.ignoring b s)
  capturing b s := SameOpening.of_progress (Progress.capturing b s)
  sourcing b s := SameOpening.of_progress (Progress.sourcing b s)
  scheduling event s := SameOpening.of_progress (Progress.scheduling event s)
  resetWatch s := SameOpening.of_progress (Progress.moving _ s)
  reading c s := called_sameOpening svc c s
  answering _ hm s :=
    SameOpening.sending (Message.openSuccess_of_ofInspection hm) s
  watching _ _ := ⟨rfl, rfl⟩

theorem handleClose_sameOpening :
    Act.Moves SameOpening (handleCloseCommand svc) := by
  apply Act.Moves.get.bind
  intro s
  apply Act.Moves.ite (Act.Moves.pure _)
  apply Act.Moves.bind
  · exact Act.Moves.modify fun _ => ⟨rfl, rfl⟩
  · intro _
    apply (sameOpening_commands svc).handleSaveEnv_moves.bind
    intro _
    exact Act.Moves.modify fun _ => ⟨rfl, rfl⟩

theorem dispatchCommand_sameOpening (command : JsonCommand) :
    Act.Moves SameOpening (dispatchCommand svc command) :=
  (sameOpening_commands svc).dispatchCommand_moves command
    (fun _ => handleClose_sameOpening svc)
    fun _ messages s => SameOpening.of_progress (Progress.copying messages s)

/-! ## An open command -/

/-- A session that is not open sends one answer to an `open` command, and is
open if the answer is a success, unless the failure is no
`std::runtime_error`. -/
theorem handleOpenCommand_answers (cmd : JsonCommand) {s : RSession σ ν}
    (hopen : s.isOpen = false) :
    Act.wp (handleOpenCommand svc cmd)
      (fun _ s' => openAnswers s'.sent = openAnswers s.sent ++ [s'.isOpen] ∧
        s'.deferred = s.deferred)
      (fun e _ => (∃ c, startFailure svc cmd s = some ⟨c, e⟩) ∧
        ¬e.type.isRuntimeError = true) s := by
  rw [handleOpenCommand, Act.wp_bind, Act.wp_get]
  beta_reduce
  rw [if_neg (by simp [hopen]), startFailure]
  apply read_rule
  · intro e hid
    rw [hid]
    refine ⟨⟨none, rfl⟩, ?_⟩
    rw [type_of_wspaceId hid]
    decide
  intro wspaceId hid
  rw [hid, Act.wp_bind, Act.wp_modify, wp_catchRuntimeError]
  let s₀ : RSession σ ν := { s with wspaceId := wspaceId }
  refine (openSession_spec svc cmd s₀).mono ?_ ?_
  · rintro _ _ ⟨-, -, s₁, hprogress, rfl⟩
    constructor
    · exact hprogress.openAnswers_eq
    · exact hprogress.deferred.trans (List.append_nil _)
  · rintro e s' ⟨c, hsome, hprogress, -⟩
    split
    next =>
      rw [wp_sendJsonToClientSource]
      have hsent : Progress s' (s'.sending (.openresponse false
          (some e.what))) [.openresponse false (some e.what)] [] :=
        Progress.sending rfl rfl s'
      have hanswered := hprogress.trans hsent
      have hclosed : s'.isOpen = false := hprogress.isOpen.trans hopen
      constructor
      · rw [RSession.sending_isOpen, hclosed]
        exact hanswered.openAnswers_eq
      · exact hanswered.deferred.trans (List.append_nil _)
    next hother => exact ⟨⟨c, hsome⟩, hother⟩

/-! ## One text -/

variable (parser : JsonParser)

/-- The text is an `open` command. -/
def asksToOpen (json : String) : Bool :=
  match parser.parse json with
  | .parsed doc =>
      decide (¬json.length < 1) &&
        match doc.index "msg" with
        | .ok (.string cmdStr) => cmdStr = "open"
        | _ => false
  | _ => false

/-- What a text should do to the answers and to a session that is not open. -/
structure OpensProperly (json : String) (s s' : RSession σ ν) : Prop where
  answered : s.isOpen = false → asksToOpen parser json = true →
    openAnswers s'.sent = openAnswers s.sent ++ [s'.isOpen]
  inert : s.isOpen = false → asksToOpen parser json = false →
    s'.querying 0 = s.querying 0
  kept : s.isOpen = true → SameOpening s s'

/-- The condition on a text: while the session is not open, only an `open`
command is taken for one, and what goes wrong in it is a
`std::runtime_error`. -/
def TextOpens (json : String) (s : RSession σ ν) : Prop :=
  ∀ doc command, parser.parse json = .parsed doc → ¬json.length < 1 →
    JsonCommand.ofJson svc.uninitialised doc = .ok command →
    command.type = .Open → s.isOpen = false →
    asksToOpen parser json = true ∧
      ∀ f ∈ startFailure svc command s, f.error.type.isRuntimeError = true

variable {svc parser}

/-- An empty text does not ask. -/
theorem asksToOpen_eq_false_of_empty {json : String} (h : json.length < 1) :
    asksToOpen parser json = false := by
  rw [asksToOpen]
  split
  next doc hparse =>
    rw [Bool.and_eq_false_iff]
    exact Or.inl (decide_eq_false (not_not.mpr h))
  next => rfl

/-- The command of an `open` text. -/
theorem ofJson_of_asksToOpen {json : String} {doc : Json}
    (hparse : parser.parse json = .parsed doc)
    (h : asksToOpen parser json = true) (uninitialised : CommandType) :
    JsonCommand.ofJson uninitialised doc = .ok ⟨doc, .Open⟩ := by
  rw [asksToOpen, hparse] at h
  obtain ⟨-, hmsg⟩ := (Bool.and_eq_true _ _).mp h
  split at hmsg
  next cmdStr hindex =>
    rw [decide_eq_true_eq] at hmsg
    rw [JsonCommand.ofJson, hindex, hmsg]
    rfl
  next => cases hmsg

/-- A text whose document is no `open` command does not ask. -/
theorem asksToOpen_eq_false_of_ne {json : String} {doc : Json}
    {uninitialised : CommandType} (hparse : parser.parse json = .parsed doc)
    (h : JsonCommand.ofJson uninitialised doc ≠ .ok ⟨doc, .Open⟩) :
    asksToOpen parser json = false := by
  by_contra hasks
  exact h (ofJson_of_asksToOpen hparse (Bool.not_eq_false _ ▸ hasks) _)

/-- What a text leaves behind, with the queue of a session that is still not
open. -/
structure TextEnd (parser : JsonParser) (json : String)
    (s s' : RSession σ ν) : Prop
    extends OpensProperly parser json s s' where
  deferred : s'.isOpen = false → s'.deferred = s.deferred

theorem TextEnd.refl {json : String} {s : RSession σ ν}
    (h : s.isOpen = false → asksToOpen parser json = false) :
    TextEnd parser json s s where
  answered hclosed hasks := by
    rw [h hclosed] at hasks
    cases hasks
  inert _ _ := rfl
  kept _ := Std.Refl.refl s
  deferred _ := rfl

theorem handleDocument_opens {json : String} {doc : Json} {s : RSession σ ν}
    (hparse : parser.parse json = .parsed doc) (hlength : ¬json.length < 1)
    (htext : TextOpens svc parser json s) :
    Act.wp (handleDocument svc doc) (fun _ => TextEnd parser json s)
      (fun _ => TextEnd parser json s) s := by
  have hasked : ∀ command,
      JsonCommand.ofJson svc.uninitialised doc = .ok command →
      command.type ≠ .Open → asksToOpen parser json = false := by
    intro command hjson htype
    apply asksToOpen_eq_false_of_ne hparse
    rw [hjson]
    exact fun hopen =>
      htype (congrArg JsonCommand.type (Except.ok.inj hopen))
  apply handleDocument_rule
  · intro e hbad _
    apply TextEnd.refl
    intro _
    apply asksToOpen_eq_false_of_ne hparse
    rw [hbad]
    intro hopen
    cases hopen
  · intro command hjson htype hopen
    apply TextEnd.refl
    intro hclosed
    rw [hopen] at hclosed
    cases hclosed
  · intro command hjson htype hclosed
    obtain ⟨hasks, hruntime⟩ :=
      htext doc command hparse hlength hjson htype hclosed
    refine (handleOpenCommand_answers svc command hclosed).mono ?_ ?_
    · rintro _ s' ⟨hanswers, hdeferred⟩
      constructor
      · constructor
        · intro _ _
          exact hanswers
        · intro _ hnot
          rw [hasks] at hnot
          cases hnot
        · intro hopen
          rw [hclosed] at hopen
          cases hopen
      · intro _
        exact hdeferred
    · rintro e s' ⟨⟨c, hsome⟩, hother⟩
      exact absurd (hruntime _ hsome) hother
  · intro command hjson htype hclosed
    have hend : TextEnd parser json s s :=
      TextEnd.refl fun _ => hasked command hjson htype
    refine ⟨⟨hend.answered, fun _ _ => rfl, fun hopen => ?_⟩, fun _ => rfl⟩
    rw [hclosed] at hopen
    cases hopen
  · intro command e hjson htype _ _ _
    exact TextEnd.refl fun _ => hasked command hjson htype
  · intro command queryId hjson htype hopen _
    have hkept : ∀ s', SameOpening s s' → TextEnd parser json s s' := by
      intro s' h
      have hclosed : s.isOpen ≠ false := by simp [hopen]
      refine ⟨⟨fun h => absurd h hclosed, fun h => absurd h hclosed,
        fun _ => h⟩, fun hend => ?_⟩
      exact absurd (h.isOpen.symm.trans hend) hclosed
    have hstart : SameOpening s (s.querying queryId) := ⟨rfl, rfl⟩
    refine ((dispatchCommand_sameOpening svc command).wp_of hstart).mono ?_ ?_
    · intro _ s' h
      exact hkept _ ⟨h.isOpen, h.answers⟩
    · intro e s' h
      rw [Caught]
      split
      · have hsent : SameOpening s' (s'.sending (commandError e)) :=
          SameOpening.sending rfl s'
        have hend := IsTrans.trans _ _ _ h hsent
        exact hkept _ ⟨hend.isOpen, hend.answers⟩
      · exact hkept _ h

/-- A text is answered as it should be if it meets the condition. -/
theorem handleJsonCommand_opens {json : String} {s : RSession σ ν}
    (htext : TextOpens svc parser json s) :
    Act.wp (handleJsonCommand svc parser json)
      (fun _ => TextEnd parser json s) (fun _ => TextEnd parser json s) s := by
  rw [handleJsonCommand]
  split
  next hlength =>
    exact TextEnd.refl fun _ => asksToOpen_eq_false_of_empty hlength
  next hlength =>
    cases hparse : parser.parse json with
    | invalidArgument =>
        apply TextEnd.refl
        intro _
        rw [asksToOpen, hparse]
    | otherException =>
        have hnull : Act.wp (handleDocument svc .null)
            (fun _ s' => s' = s) (fun _ s' => s' = s) s := by
          rfl
        have hend : TextEnd parser json s s := by
          apply TextEnd.refl
          intro _
          rw [asksToOpen, hparse]
        exact hnull.mono (fun _ _ h => h ▸ hend) fun _ _ h => h ▸ hend
    | parsed doc => exact handleDocument_opens hparse hlength htext

theorem handleJsonStatic_opens {json : String} {s : RSession σ ν}
    (htext : TextOpens svc parser json s) :
    TextEnd parser json s (handleJsonStatic svc parser json s).2 := by
  have hstatic : Act.wp (handleJsonStatic svc parser json)
      (fun _ => TextEnd parser json s) (fun _ => TextEnd parser json s)
      s := by
    rw [handleJsonStatic, Act.wp_tryCatch]
    refine (handleJsonCommand_opens htext).mono (fun _ _ h => h)
      fun e s' h => ?_
    split
    · exact h
    · exact h
  exact hstatic.final

/-- An event of the queue answers no `open` command. -/
theorem runDeferred_sameOpening {event : Deferred} {s : RSession σ ν}
    (hopen : s.isOpen = true) :
    SameOpening s (runDeferred svc parser event s).2 := by
  cases event with
  | execComplete command queryId finfo =>
      have hmoves := (sameOpening_commands svc).handleExecComplete_moves command
        queryId finfo
      exact hmoves.keeps s
  | command json =>
      have htext : TextOpens svc parser json s := by
        intro _ _ _ _ _ _ hclosed
        rw [hopen] at hclosed
        cases hclosed
      exact (handleJsonCommand_opens htext).final.kept hopen

end Handlers

/-! ## Runs -/

namespace Conversation

/-- The answers to `open` commands so far. -/
def answers (c : Conversation σ ν) : List Bool :=
  openAnswers (c.log.map Prod.fst)

/-- What a callback should do to the answers and to a session that is not
open. -/
structure OpensProperly (asks : Bool) (c c' : Conversation σ ν) : Prop where
  answered : c.session.isOpen = false → asks = true →
    c'.answers = c.answers ++ [c'.session.isOpen]
  inert : c.session.isOpen = false → asks = false →
    c'.session.querying 0 = c.session.querying 0 ∧ c'.log = c.log ∧
      c'.pending = c.pending
  kept : c.session.isOpen = true →
    c'.session.isOpen = true ∧ c'.answers = c.answers

/-- Whether a callback is an `open` command. -/
def asksToOpen (parser : JsonParser) : Turn σ ν → Bool
  | .text _ json => Session.asksToOpen parser json
  | .event _ _ => false

/-- The condition on a callback. -/
def TurnOpens (parser : JsonParser) (c : Conversation σ ν) : Turn σ ν → Prop
  | .text svc json => TextOpens svc parser json c.session
  | .event _ _ => True

/-- A session that is not open has an empty queue, and one success has been
answered at most, by a session that is open. -/
structure OpenedOnce (c : Conversation σ ν) : Prop where
  sent : c.session.sent = []
  deferred : c.session.deferred = []
  pending : c.session.isOpen = false → c.pending = []
  successes : c.answers.count true ≤ if c.session.isOpen then 1 else 0

theorem openedOnce_fresh (outer : σ) :
    (fresh outer : Conversation σ ν).OpenedOnce :=
  ⟨rfl, rfl, fun _ => rfl, Nat.le_refl 0⟩

/-- The answers of a callback are those it has sent. -/
theorem answers_collect (c : Conversation σ ν) (command : JsonCommand)
    (pending : List (Deferred × JsonCommand)) (s : RSession σ ν) :
    (c.collect command pending s).answers =
      c.answers ++ openAnswers s.sent := by
  simp [answers, collect, Function.comp_def]

/-- A callback of a session that is open. -/
theorem OpenedOnce.of_open {c : Conversation σ ν} {s' : RSession σ ν}
    (h : c.OpenedOnce) (hopen : c.session.isOpen = true)
    (hs' : SameOpening c.session s') (asks : Bool) (command : JsonCommand)
    (pending : List (Deferred × JsonCommand)) :
    OpensProperly asks c (c.collect command pending s') ∧
      (c.collect command pending s').OpenedOnce := by
  have hnotClosed : c.session.isOpen ≠ false := by simp [hopen]
  have hopen' : (c.collect command pending s').session.isOpen = true :=
    hs'.isOpen.trans hopen
  have hanswers : (c.collect command pending s').answers = c.answers := by
    rw [answers_collect, hs'.answers, h.sent]
    exact List.append_nil _
  constructor
  · constructor
    · exact fun hclosed => absurd hclosed hnotClosed
    · exact fun hclosed => absurd hclosed hnotClosed
    · exact fun _ => ⟨hopen', hanswers⟩
  · constructor
    · rfl
    · rfl
    · intro hclosed
      rw [hopen'] at hclosed
      cases hclosed
    · have hsuccesses := h.successes
      rw [hanswers, hopen']
      rw [hopen] at hsuccesses
      exact hsuccesses

/-- A text of a session that is not open. -/
theorem OpenedOnce.of_closed {parser : JsonParser} {c : Conversation σ ν}
    {json : String} {s' : RSession σ ν} (h : c.OpenedOnce)
    (hclosed : c.session.isOpen = false)
    (hend : TextEnd parser json c.session s') (command : JsonCommand) :
    OpensProperly (Session.asksToOpen parser json) c
        (c.collect command c.pending s') ∧
      (c.collect command c.pending s').OpenedOnce := by
  have hnone : openAnswers c.session.sent = [] := by
    rw [h.sent]
    rfl
  have hempty := h.pending hclosed
  have hnotOpen : c.session.isOpen ≠ true := by simp [hclosed]
  have hsuccesses := h.successes
  rw [hclosed] at hsuccesses
  have hpending : (c.collect command c.pending s').session.isOpen = false →
      (c.collect command c.pending s').pending = [] := by
    intro hclosed'
    have hdeferred := hend.deferred hclosed'
    rw [h.deferred] at hdeferred
    rw [collect, hempty, hdeferred]
    rfl
  cases hasks : Session.asksToOpen parser json with
  | true =>
      have hanswered : (c.collect command c.pending s').answers =
          c.answers ++ [s'.isOpen] := by
        rw [answers_collect, hend.answered hclosed hasks, hnone,
          List.nil_append]
      constructor
      · constructor
        · exact fun _ _ => hanswered
        · exact fun _ hnot => absurd hnot (by decide)
        · exact fun hopen => absurd hopen hnotOpen
      · refine ⟨rfl, rfl, hpending, ?_⟩
        have hzero : c.answers.count true = 0 := Nat.le_zero.mp hsuccesses
        rw [hanswered, List.count_append, hzero, Nat.zero_add,
          List.count_singleton]
        cases hopen : s'.isOpen with
        | true => simp [collect, hopen]
        | false => simp
  | false =>
      have hsame := hend.inert hclosed hasks
      have hsent : s'.sent = [] :=
        (congrArg RSession.sent hsame).trans h.sent
      have hdeferred : s'.deferred = [] :=
        (congrArg RSession.deferred hsame).trans h.deferred
      have hclosed' : s'.isOpen = false :=
        (congrArg RSession.isOpen hsame).trans hclosed
      have hsession : { s' with sent := [], deferred := [] } = s' := by
        rw [← hsent, ← hdeferred]
      have hlog : (c.collect command c.pending s').log = c.log := by
        rw [collect, hsent]
        exact List.append_nil _
      constructor
      · constructor
        · exact fun _ hnot => absurd hnot (by decide)
        · intro _ _
          refine ⟨?_, hlog, ?_⟩
          · rw [← hsame]
            exact congrArg (RSession.querying 0) hsession
          · rw [hpending hclosed', hempty]
        · exact fun hopen => absurd hopen hnotOpen
      · refine ⟨rfl, rfl, hpending, ?_⟩
        rw [answers, hlog]
        exact hsuccesses.trans (Nat.zero_le _)

theorem OpenedOnce.step {parser : JsonParser} {c : Conversation σ ν}
    {turn : Turn σ ν} (h : c.OpenedOnce) (hturn : c.TurnOpens parser turn) :
    OpensProperly (asksToOpen parser turn) c (c.step parser turn) ∧
      (c.step parser turn).OpenedOnce := by
  cases turn with
  | text svc json =>
      have hend := handleJsonStatic_opens (s := c.session) hturn
      cases hopen : c.session.isOpen with
      | true => exact h.of_open hopen (hend.kept hopen) _ _ _
      | false => exact h.of_closed hopen hend _
  | event svc index =>
      rw [Conversation.step]
      cases hevent : c.pending[index]? with
      | none =>
          exact ⟨⟨fun _ hasks => (by cases hasks), fun _ _ => ⟨rfl, rfl, rfl⟩,
            fun hopen => ⟨hopen, rfl⟩⟩, h⟩
      | some p =>
          have hopen : c.session.isOpen = true := by
            by_contra hclosed
            rw [h.pending (by simpa using hclosed)] at hevent
            cases hevent
          exact h.of_open hopen (runDeferred_sameOpening hopen) _ _ _

end Conversation

/-- In every run whose texts meet the condition, every `open` command of a
session that is not open is answered once, by whether the session is then
open; until then nothing else has an effect; and one success is answered at
most. -/
theorem opensProperly_of_turnOpens (parser : JsonParser) (outer : σ)
    (turns : List (Turn σ ν))
    (hturns : Transition.Along (Conversation.step parser)
      (Conversation.TurnOpens parser) (Conversation.fresh outer) turns) :
    Transition.Along (Conversation.step parser)
      (fun c turn => Conversation.OpensProperly
        (Conversation.asksToOpen parser turn) c (c.step parser turn))
      (Conversation.fresh outer) turns ∧
    (Transition.run (Conversation.step parser) (Conversation.fresh outer)
      turns).answers.count true ≤ 1 := by
  have hfresh := Conversation.openedOnce_fresh (ν := ν) outer
  constructor
  · exact Transition.along_of_invariant (I := Conversation.OpenedOnce)
      (fun _ _ h hturn => (h.step hturn).2)
      (fun _ _ h hturn => (h.step hturn).1) hfresh hturns
  · have hend := Transition.run_invariant (I := Conversation.OpenedOnce)
      (fun _ _ h hturn => (h.step hturn).2) hfresh hturns
    refine hend.successes.trans ?_
    split
    · exact le_rfl
    · exact Nat.zero_le 1

/-! ## A workspace without a number -/

/-- The parser of a client that forgets the workspace first. -/
def openParser : JsonParser :=
  .ofTexts [
    ("no workspace", .object [("msg", .string "open"),
      ("sessionRecId", .integer 1)]),
    ("open", .object [("msg", .string "open"), ("wspaceId", .integer 1),
      ("sessionRecId", .integer 1)])]

/-- The first attempt fails where the directory is made, and the second one
succeeds. -/
def openedTwice : List (Turn Unit Unit) :=
  [.text { Services.succeeding () with holds := fun _ _ => false } "open",
    .text (.succeeding ()) "open"]

/-- The command of the second text. -/
def openCommand : JsonCommand where
  cmd := .object [("msg", .string "open"), ("wspaceId", .integer 1),
    ("sessionRecId", .integer 1)]
  type := .Open

/-- An `open` text whose failures are known. -/
theorem textOpens_open {svc : Services Unit Unit} {s : RSession Unit Unit}
    (h : ∀ f ∈ startFailure svc openCommand s,
      f.error.type.isRuntimeError = true) :
    TextOpens svc openParser "open" s := by
  intro doc command hparse _ hjson _ _
  obtain rfl : openCommand.cmd = doc := ParseOutcome.parsed.inj hparse
  obtain rfl : openCommand = command := Except.ok.inj hjson
  exact ⟨by decide, h⟩

theorem turnOpens_openedTwice :
    Transition.Along (Conversation.step openParser)
      (Conversation.TurnOpens openParser) (Conversation.fresh ())
      openedTwice := by
  refine ⟨textOpens_open fun f hf => ?_, textOpens_open fun f hf => ?_,
    trivial⟩
  · have hfailed : some ⟨none, directoryError⟩ = some f := hf
    obtain rfl := Option.some.inj hfailed
    rfl
  · have hnone : none = some f := hf
    cases hnone

theorem opensProperly_of_turnOpens_openedTwice :
    Transition.Along (Conversation.step openParser)
      (fun c turn => Conversation.OpensProperly
        (Conversation.asksToOpen openParser turn) c (c.step openParser turn))
      (Conversation.fresh ()) openedTwice ∧
    (Transition.run (Conversation.step openParser) (Conversation.fresh ())
      openedTwice).answers.count true ≤ 1 :=
  opensProperly_of_turnOpens openParser () openedTwice turnOpens_openedTwice

/-- The field is read outside of the `try`. -/
theorem opensProperly_fails_on_missing_workspace :
    ¬Transition.Along (Conversation.step openParser)
      (fun c turn => Conversation.OpensProperly
        (Conversation.asksToOpen openParser turn) c (c.step openParser turn))
      (Conversation.fresh ())
      [.text (.succeeding () : Services Unit Unit) "no workspace"] := by
  rintro ⟨hopens, -⟩
  have hanswered := hopens.answered rfl (by decide)
  revert hanswered
  decide

end Rc2Compute.Session
