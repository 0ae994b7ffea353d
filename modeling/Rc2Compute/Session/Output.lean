import Rc2Compute.Session.Idle
import Rc2Compute.Session.Replies

/-!
# Script output

What the client receives of the texts R writes while scripts run, over any
sequence of scripts.  The texts R writes to `stderr` are sent at once, the
others when the script has ended, and each under the query id of its script.
-/

namespace Rc2Compute.Session

variable {σ ν : Type} {parser : JsonParser}

/-! ## Scripts -/

/-- A command to run a script, and the services while it is handled.  The
calls that run R return, as those of `RInside` for scripts do, and R writes
while it evaluates the script and while it saves its images. -/
structure Script (σ ν : Type) (parser : JsonParser) where
  svc : Services σ ν
  json : String
  command : JsonCommand
  queryId : ℤ
  requests : Requests svc parser json command
  type : command.type = .ExecScript
  query : command.queryId = .ok queryId
  positive : 0 < queryId
  returns : ∀ c, c.runsR = true → svc.throws c = none
  silent : svc.output .captureEnvironment = []

/-- The texts R writes visibly, and not to `stderr`. -/
def visibleText (writes : List ConsoleWrite) : String :=
  String.join ((writes.filter fun w => !w.isError && w.visible).map
    ConsoleWrite.text)

namespace Script

variable (x : Script σ ν parser)

/-- What R writes while it evaluates the script of a session that watches
variables, or does not.  The script is not evaluated if a field of the command
is of the wrong type. -/
def writes (watching : Bool) : List ConsoleWrite :=
  match x.command.argument,
      if watching then .ok true else x.command.watchVariables with
  | .ok argument, .ok _ => x.svc.output (.parseEvalR argument)
  | _, _ => []

/-- Whether the script is evaluated, and ends in the middle of a statement. -/
def isIncomplete (watching : Bool) : Bool :=
  match x.command.argument,
      if watching then .ok true else x.command.watchVariables with
  | .ok _, .ok _ => x.svc.parseResult = .PE_INCOMPLETE
  | _, _ => false

/-- A text sent under the query id of the script. -/
def message (text : String) (isError : Bool) (origin : Origin) : Message ν :=
  .results text isError (some x.queryId) origin

/-- The messages for a script. -/
def messages (watching : Bool) : List (Message ν) :=
  ((x.writes watching).filter fun w => w.isError && decide (0 < w.text.length)).map
      (fun w => x.message w.text true .console) ++
    (if 0 < (visibleText (x.writes watching)).length then
      [x.message (visibleText (x.writes watching)) false .console]
    else []) ++
    if x.isIncomplete watching then
      [x.message incompleteStatement true .session]
    else []

end Script

/-! ## What a script sends -/

/-- A session between two scripts. -/
structure Listening (watching : Bool) (s : RSession σ ν) : Prop
    extends s.Quiet where
  isOpen : s.isOpen = true
  consoleOutBuffer : s.consoleOutBuffer = ""
  watchVariables : s.watchVariables = watching

theorem Listening.scheduling {watching : Bool} {s : RSession σ ν}
    (h : Listening watching s) (event : Deferred) :
    Listening watching (s.scheduling event) where
  toQuiet := h.toQuiet.scheduling event
  isOpen := h.isOpen
  consoleOutBuffer := h.consoleOutBuffer
  watchVariables := h.watchVariables

theorem Listening.sending {watching : Bool} {s : RSession σ ν}
    (h : Listening watching s) (json : Message ν) :
    Listening watching (s.sending json) where
  toQuiet := h.toQuiet.sending json
  isOpen := h.isOpen
  consoleOutBuffer := h.consoleOutBuffer
  watchVariables := h.watchVariables

theorem Listening.querying {watching : Bool} {s : RSession σ ν}
    (h : Listening watching s) (queryId : ℤ) :
    Listening watching (s.querying queryId) where
  toQuiet := h.toQuiet.of_flags rfl rfl rfl
  isOpen := h.isOpen
  consoleOutBuffer := h.consoleOutBuffer
  watchVariables := h.watchVariables

/-- In a quiet session a text is sent as it is. -/
theorem formatStringAsJson_quiet {s : RSession σ ν} (hs : s.Quiet)
    (hpositive : 0 < s.currentQueryId) (text : String) (isError : Bool)
    (origin : Origin) :
    formatStringAsJson s text isError origin =
      .results text isError (some s.currentQueryId) origin := by
  rw [formatStringAsJson, hs.sourceInProgress, queryIdField, if_pos hpositive]
  rfl

theorem RSession.Quiet.muted {s : RSession σ ν} (hs : s.Quiet) :
    s.muted = false := by
  rw [RSession.muted, hs.captureStdOut, hs.ignoreOutput]
  rfl

theorem RSession.Quiet.buffered {s : RSession σ ν} (hs : s.Quiet)
    (writes : List ConsoleWrite) : s.buffered writes = visibleText writes := by
  rw [RSession.buffered, hs.muted, hs.sourceInProgress, visibleText]
  simp only [Bool.or_false]
  rfl

/-- Nothing R writes while it saves its images is sent. -/
theorem flushed_sent (svc : Services σ ν) (s : RSession σ ν) :
    (s.flushed svc).sent = s.sent ++ s.bufferSent false := by
  have hmuted : (s.ignoring true).muted = true := by
    simp [RSession.muted]
  have herrors : (s.ignoring true).errorsSent (svc.output pngoff) = [] := by
    rw [RSession.errorsSent, if_pos hmuted]
  have hbuffered : (s.ignoring true).buffered (svc.output pngoff) = "" := by
    rw [RSession.buffered, if_pos hmuted]
  have hbuffer : (((s.ignoring true).called svc pngoff).ignoring
      false).consoleOutBuffer = s.consoleOutBuffer := by
    change s.consoleOutBuffer ++ (s.ignoring true).buffered (svc.output pngoff) =
      s.consoleOutBuffer
    rw [hbuffered, String.append_empty]
  have hsent : (((s.ignoring true).called svc pngoff).ignoring
      false).bufferSent false = s.bufferSent false := by
    rw [RSession.bufferSent, hbuffer]
    rfl
  change (s.sent ++ (s.ignoring true).errorsSent (svc.output pngoff)) ++
    (((s.ignoring true).called svc pngoff).ignoring false).bufferSent false =
      s.sent ++ s.bufferSent false
  rw [herrors, hsent, List.append_nil]

namespace Script

/-- Between `s` and `s'` the messages for the script are sent. -/
structure Sends (x : Script σ ν parser) (watching : Bool)
    (s s' : RSession σ ν) : Prop where
  listening : Listening watching s'
  sent : s'.sent = s.sent ++ x.messages watching

/-- A script that is not evaluated has no messages. -/
theorem messages_of_error {x : Script σ ν parser} {watching : Bool}
    {e : CxxException}
    (h : x.command.argument = .error e ∨
      (if watching then .ok true else x.command.watchVariables) = .error e) :
    x.messages watching = [] := by
  have hwrites : x.writes watching = [] := by
    unfold writes
    split
    next hargument hwatch =>
      rw [hargument, hwatch] at h
      rcases h with h | h
      · cases h
      · cases h
    next => rfl
  have hincomplete : x.isIncomplete watching = false := by
    unfold isIncomplete
    split
    next hargument hwatch =>
      rw [hargument, hwatch] at h
      rcases h with h | h
      · cases h
      · cases h
    next => rfl
  rw [messages, hwrites, hincomplete]
  rfl

theorem messages_of_ok {x : Script σ ν parser} {watching sendDelta : Bool}
    {argument : String} (hargument : x.command.argument = .ok argument)
    (hdelta : (if watching then .ok true else x.command.watchVariables) =
      .ok sendDelta) :
    x.writes watching = x.svc.output (.parseEvalR argument) ∧
      x.isIncomplete watching = decide (x.svc.parseResult = .PE_INCOMPLETE) := by
  rw [writes, isIncomplete, hargument, hdelta]
  exact ⟨rfl, rfl⟩

theorem sendsDelta_eq {command : JsonCommand} {watching : Bool}
    {s : RSession σ ν} (h : Listening watching s) :
    sendsDelta command s =
      if watching then .ok true else command.watchVariables := by
  rw [sendsDelta, h.watchVariables]

/-- A call that writes nothing sends nothing. -/
theorem listening_called {svc : Services σ ν} {c : Call} {watching : Bool}
    {s : RSession σ ν} (h : Listening watching s) (hsilent : svc.output c = []) :
    Listening watching (s.called svc c) ∧ (s.called svc c).sent = s.sent := by
  have hcalled : s.called svc c = s.moving (svc.effect c) := by
    rw [RSession.called, hsilent, RSession.written_nil]
  rw [hcalled]
  refine ⟨⟨h.toQuiet.of_flags rfl rfl rfl, h.isOpen, h.consoleOutBuffer,
    h.watchVariables⟩, rfl⟩

theorem listening_calledIf {svc : Services σ ν} {c : Call} {watching : Bool}
    {s : RSession σ ν} (condition : Bool) (h : Listening watching s)
    (hsilent : svc.output c = []) :
    Listening watching (s.calledIf svc condition c) ∧
      (s.calledIf svc condition c).sent = s.sent := by
  cases condition with
  | true => exact listening_called h hsilent
  | false => exact ⟨h, rfl⟩

/-- A session whose output has been flushed listens again. -/
theorem listening_flushed (svc : Services σ ν) (c : Call) {watching : Bool}
    {s : RSession σ ν} (h : Listening watching s) :
    Listening watching ((s.called svc c).flushed svc) where
  ignoreOutput := RSession.flushed_ignoreOutput ..
  captureStdOut := by
    rw [RSession.flushed_captureStdOut, RSession.called_captureStdOut]
    exact h.captureStdOut
  sourceInProgress := by
    rw [RSession.flushed_sourceInProgress, RSession.called_sourceInProgress]
    exact h.sourceInProgress
  isOpen := by
    rw [RSession.flushed_isOpen, RSession.called_isOpen]
    exact h.isOpen
  consoleOutBuffer := RSession.flushed_consoleOutBuffer ..
  watchVariables := by
    rw [RSession.flushed_watchVariables, RSession.called_watchVariables]
    exact h.watchVariables

/-- The texts to `stderr` are sent while the script is evaluated. -/
theorem errorsSent_eq {x : Script σ ν parser} {watching : Bool}
    {s : RSession σ ν} (h : Listening watching s)
    (hid : s.currentQueryId = x.queryId) (writes : List ConsoleWrite) :
    s.errorsSent writes =
      (writes.filter fun w => w.isError && decide (0 < w.text.length)).map
        fun w => x.message w.text true .console := by
  have hpositive : 0 < s.currentQueryId := hid ▸ x.positive
  rw [RSession.errorsSent, h.toQuiet.muted, if_neg Bool.false_ne_true]
  apply List.map_congr_left
  intro w _
  rw [formatStringAsJson_quiet h.toQuiet hpositive, hid, message]

/-- The other texts are sent when the output is flushed. -/
theorem bufferSent_eq {x : Script σ ν parser} {watching : Bool} {c : Call}
    {s : RSession σ ν} (h : Listening watching s)
    (hid : s.currentQueryId = x.queryId) :
    (s.called x.svc c).bufferSent false =
      if 0 < (visibleText (x.svc.output c)).length then
        [x.message (visibleText (x.svc.output c)) false .console]
      else [] := by
  have hbuffer : (s.called x.svc c).consoleOutBuffer =
      visibleText (x.svc.output c) := by
    change s.consoleOutBuffer ++ s.buffered (x.svc.output c) = _
    rw [h.consoleOutBuffer, String.empty_append, h.toQuiet.buffered]
  have hquiet : (s.called x.svc c).Quiet := h.toQuiet.of_flags rfl rfl rfl
  have hquery : (s.called x.svc c).currentQueryId = x.queryId := hid
  have hpositive : 0 < (s.called x.svc c).currentQueryId :=
    hquery ▸ x.positive
  rw [RSession.bufferSent, hbuffer, formatStringAsJson_quiet hquiet hpositive,
    hquery, message]

/-- A script that has been evaluated, and whose output has been flushed. -/
theorem evaluated_sent {x : Script σ ν parser} {watching : Bool}
    {argument : String} {s : RSession σ ν} (h : Listening watching s)
    (hid : s.currentQueryId = x.queryId)
    (hwrites : x.writes watching = x.svc.output (.parseEvalR argument)) :
    ((s.called x.svc (.parseEvalR argument)).flushed x.svc).sent = s.sent ++
      (((x.writes watching).filter fun w =>
          w.isError && decide (0 < w.text.length)).map
            (fun w => x.message w.text true .console) ++
        if 0 < (visibleText (x.writes watching)).length then
          [x.message (visibleText (x.writes watching)) false .console]
        else []) := by
  rw [flushed_sent, RSession.called_sent, errorsSent_eq h hid,
    bufferSent_eq h hid, hwrites, List.append_assoc]

/-- A script whose output has been flushed: a success is acknowledged, and an
incomplete statement is told. -/
theorem concluded_sends (x : Script σ ν parser) {watching : Bool}
    (sendDelta : Bool) {s s₁ : RSession σ ν} (hend : Listening watching s₁)
    (hquery : s₁.currentQueryId = x.queryId)
    (hincomplete : x.isIncomplete watching =
      decide (x.svc.parseResult = .PE_INCOMPLETE))
    (hall : s.sent ++ x.messages watching = s₁.sent ++
      if x.isIncomplete watching then
        [x.message incompleteStatement true .session]
      else []) :
    Act.wp (match x.svc.parseResult with
        | .PE_SUCCESS => do
            scheduleExecCompleteAcknowledgmenet x.command noFile
            if sendDelta then scheduleDelayedCommand
        | .PE_INCOMPLETE => sendTextToClient incompleteStatement true .session
        | _ => pure () : Handler σ ν Unit)
      (fun _ s' => x.Sends watching s s') (fun _ _ => False) s₁ := by
  have hdone : s₁.sent = s.sent ++ x.messages watching ∨
      x.svc.parseResult = .PE_INCOMPLETE := by
    by_cases hresult : x.svc.parseResult = .PE_INCOMPLETE
    · exact .inr hresult
    · rw [hall, hincomplete, decide_eq_false hresult]
      exact .inl (List.append_nil _).symm
  cases hresult : x.svc.parseResult with
  | PE_SUCCESS =>
      have hsent₁ := hdone.resolve_right (by simp [hresult])
      have hlistening := fun event => Listening.scheduling hend event
      rw [Act.wp_bind, wp_scheduleExecComplete]
      split
      · exact ⟨(hlistening _).scheduling _, hsent₁⟩
      · exact ⟨hlistening _, hsent₁⟩
  | PE_INCOMPLETE =>
      refine Act.wp_of_apply
        (sendTextToClient_apply_of_pos (by decide) _ _ _) ⟨hend.sending _, ?_⟩
      have hpositive : 0 < s₁.currentQueryId := hquery ▸ x.positive
      rw [hall, hincomplete, hresult, RSession.sending_sent,
        formatStringAsJson_quiet hend.toQuiet hpositive, hquery]
      rfl
  | PE_ERROR | PE_NULL | PE_EOF | PE_EXEC_ERROR =>
      have hsent₁ := hdone.resolve_right (by simp [hresult])
      exact ⟨hend, hsent₁⟩

/-- A script sends its messages, whether it is evaluated or not. -/
theorem handleExecuteScript_sends (x : Script σ ν parser) {watching : Bool}
    {s : RSession σ ν} (h : Listening watching s)
    (hid : s.currentQueryId = x.queryId) :
    Act.wp (handleExecuteScript x.svc x.command)
      (fun _ s' => x.Sends watching s s')
      (fun e s' => e.type = .domainError ∧ x.Sends watching s s') s := by
  have hunread : ∀ e : CxxException, (x.command.argument = .error e ∨
      (if watching then .ok true else x.command.watchVariables) = .error e) →
      x.Sends watching s s := by
    intro e herror
    exact ⟨h, by rw [messages_of_error herror, List.append_nil]⟩
  rw [handleExecuteScript]
  apply read_rule
  · intro e hargument
    exact ⟨Json.type_of_value (fun _ _ => Json.type_of_getString) hargument,
      hunread e (.inl hargument)⟩
  intro argument hargument
  rw [Act.wp_bind, Act.wp_get]
  apply read_rule
  · intro e hdelta
    rw [sendsDelta_eq h] at hdelta
    refine ⟨?_, hunread e (.inr hdelta)⟩
    cases watching with
    | true => cases hdelta
    | false => exact Json.type_of_value (fun _ _ => Json.type_of_getBool) hdelta
  intro sendDelta hdelta
  rw [sendsDelta_eq h] at hdelta
  obtain ⟨hwrites, hincomplete⟩ := messages_of_ok hargument hdelta
  obtain ⟨hcaptured, hunsent⟩ := listening_calledIf sendDelta h x.silent
  apply callIf_rule
  · intro e hthrows
    rw [x.returns _ rfl, ite_self] at hthrows
    cases hthrows
  intro _
  rw [Act.wp_bind, Act.wp_modify]
  have hreset : Listening watching
      ((s.calledIf x.svc sendDelta .captureEnvironment).moving
        x.svc.resetWatch) :=
    ⟨hcaptured.toQuiet.of_flags rfl rfl rfl, hcaptured.isOpen,
      hcaptured.consoleOutBuffer, hcaptured.watchVariables⟩
  have hend := listening_flushed x.svc (.parseEvalR argument) hreset
  have hsent := evaluated_sent hreset (by simpa using hid) hwrites
  apply call_rule
  · intro e hthrows
    rw [x.returns _ rfl] at hthrows
    cases hthrows
  intro _
  apply flush_rule
  · intro e hthrows
    rw [x.returns _ rfl] at hthrows
    cases hthrows
  intro _
  have hquery : ((((s.calledIf x.svc sendDelta .captureEnvironment).moving
      x.svc.resetWatch).called x.svc (.parseEvalR argument)).flushed
        x.svc).currentQueryId = x.queryId := by
    simpa using hid
  have hstart : ((s.calledIf x.svc sendDelta .captureEnvironment).moving
      x.svc.resetWatch).sent = s.sent := hunsent
  rw [hstart] at hsent
  refine (x.concluded_sends sendDelta hend hquery hincomplete ?_).mono
    (fun _ _ h => h) fun _ _ h => h.elim
  rw [hsent, messages]
  exact (List.append_assoc ..).symm

/-- The callback that handles the command of a script. -/
def step (s : RSession σ ν) (x : Script σ ν parser) : RSession σ ν :=
  sessionStep parser s (x.svc, .command x.json)

theorem step_sends (x : Script σ ν parser) {watching : Bool}
    {s : RSession σ ν} (h : Listening watching s) :
    x.Sends watching s (step s x) := by
  have hmessage : Act.wp (handleJsonCommand x.svc parser x.json)
      (fun _ => x.Sends watching s) (fun _ => x.Sends watching s) s := by
    apply x.requests.rule h.isOpen
    · intro e herror
      rw [x.query] at herror
      cases herror
    · intro queryId hquery
      obtain rfl : x.queryId = queryId :=
        Except.ok.inj (x.query.symm.trans hquery)
      rw [dispatchCommand, x.type]
      refine (x.handleExecuteScript_sends (h.querying x.queryId) rfl).mono ?_ ?_
      · rintro _ s' hsends
        exact ⟨hsends.listening.querying 0, hsends.sent⟩
      · rintro e s' ⟨htype, hsends⟩
        have hother : ¬e.type.isRuntimeError = true := by
          rw [htype]
          decide
        rw [Caught, if_neg hother]
        exact ⟨hsends.listening, hsends.sent⟩
  exact hmessage.final

/-- The messages for some scripts are sent one script after the other. -/
theorem run_sends {watching : Bool} {s : RSession σ ν}
    (h : Listening watching s) (scripts : List (Script σ ν parser)) :
    Listening watching (Transition.run step s scripts) ∧
      (Transition.run step s scripts).sent =
        s.sent ++ scripts.flatMap (messages · watching) := by
  induction scripts generalizing s with
  | nil => exact ⟨h, (List.append_nil _).symm⟩
  | cons x scripts ih =>
      have hfirst := x.step_sends h
      obtain ⟨hlistening, hsent⟩ := ih hfirst.listening
      rw [Transition.run_cons]
      refine ⟨hlistening, ?_⟩
      rw [hsent, hfirst.sent, List.append_assoc, List.flatMap_cons]

end Script

/-! ## Output by query -/

/-- The text of a `stdout` message under a query id. -/
def Message.stdoutUnder (queryId : ℤ) : Message ν → String
  | .results string false (some id) _ => if id = queryId then string else ""
  | _ => ""

/-- The texts of the `stdout` messages under a query id in one text. -/
def stdoutOf (queryId : ℤ) (messages : List (Message ν)) : String :=
  String.join (messages.map (Message.stdoutUnder queryId))

theorem stdoutOf_append (queryId : ℤ) (messages rest : List (Message ν)) :
    stdoutOf queryId (messages ++ rest) =
      stdoutOf queryId messages ++ stdoutOf queryId rest := by
  rw [stdoutOf, List.map_append, String.join_append]
  rfl

theorem stdoutOf_eq_empty {queryId : ℤ} {messages : List (Message ν)}
    (h : ∀ m ∈ messages, m.stdoutUnder queryId = "") :
    stdoutOf queryId messages = "" := by
  induction messages with
  | nil => rfl
  | cons m messages ih =>
      obtain ⟨hm, hrest⟩ := List.forall_mem_cons.mp h
      rw [← List.singleton_append, stdoutOf_append, ih hrest,
        String.append_empty]
      simpa [stdoutOf, String.join] using hm

/-- The `stdout` messages for a script have its visible text, under its own
query id. -/
theorem Script.stdoutOf_messages (x : Script σ ν parser) (watching : Bool)
    (queryId : ℤ) :
    stdoutOf queryId (x.messages watching) =
      if x.queryId = queryId then visibleText (x.writes watching) else "" := by
  have herrors : stdoutOf queryId (((x.writes watching).filter fun w =>
      w.isError && decide (0 < w.text.length)).map
        fun w => x.message w.text true .console) = "" := by
    apply stdoutOf_eq_empty
    intro m hm
    obtain ⟨w, -, rfl⟩ := List.mem_map.mp hm
    rfl
  have hincomplete : stdoutOf queryId (if x.isIncomplete watching then
      [x.message incompleteStatement true .session] else []) = "" := by
    apply stdoutOf_eq_empty
    intro m hm
    split at hm
    · rw [List.mem_singleton.mp hm]
      rfl
    · cases hm
  rw [messages, stdoutOf_append, stdoutOf_append, herrors, hincomplete,
    String.empty_append, String.append_empty]
  split
  · simp [stdoutOf, String.join, message, Message.stdoutUnder]
  next hlength =>
    have hempty : visibleText (x.writes watching) = "" :=
      String.length_eq_zero_iff.mp (by omega)
    rw [hempty, ite_self]
    rfl

theorem stdoutOf_flatMap (scripts : List (Script σ ν parser)) (watching : Bool)
    (queryId : ℤ) :
    stdoutOf queryId (scripts.flatMap (Script.messages · watching)) =
      String.join ((scripts.filter (·.queryId = queryId)).map
        fun x => visibleText (x.writes watching)) := by
  induction scripts with
  | nil => rfl
  | cons x scripts ih =>
      rw [List.flatMap_cons, stdoutOf_append, x.stdoutOf_messages, ih]
      by_cases hquery : x.queryId = queryId
      · rw [if_pos hquery, List.filter_cons_of_pos (by simpa using hquery),
          List.map_cons, String.join_cons]
      · rw [if_neg hquery, List.filter_cons_of_neg (by simpa using hquery),
          String.empty_append]

/-- After some scripts the buffer is empty, each of them has sent its own
messages, and the `stdout` texts under a query id are what R has written
visibly for the scripts with that id. -/
theorem output_sent_once {watching : Bool} {s : RSession σ ν}
    (h : Listening watching s) (scripts : List (Script σ ν parser)) :
    (Transition.run Script.step s scripts).consoleOutBuffer = "" ∧
      sentBetween s (Transition.run Script.step s scripts) =
        scripts.flatMap (Script.messages · watching) ∧
      ∀ queryId,
        stdoutOf queryId
            (sentBetween s (Transition.run Script.step s scripts)) =
          String.join ((scripts.filter (·.queryId = queryId)).map
            fun x => visibleText (x.writes watching)) := by
  obtain ⟨hlistening, hsent⟩ := Script.run_sends h scripts
  have hmessages : sentBetween s (Transition.run Script.step s scripts) =
      scripts.flatMap (Script.messages · watching) := by
    rw [sentBetween, hsent, List.drop_left]
  refine ⟨hlistening.consoleOutBuffer, hmessages, ?_⟩
  intro queryId
  rw [hmessages, stdoutOf_flatMap]

/-! ## Two scripts -/

/-- R prints a text for every script, and another one while it saves its
images. -/
def printing (text : String) : Services Unit Unit :=
  { Services.succeeding () with
    output := fun c =>
      match c with
      | .parseEvalR _ => [⟨text, false, true⟩]
      | .parseEvalQNT _ => [⟨"null device\n", false, true⟩]
      | _ => []
    output_eq_nil := fun c h => by
      cases c with
      | parseEvalR script => cases h
      | parseEvalQNT rcmd => cases h
      | _ => rfl }

/-- A script under the query id 3. -/
def printScript (text : String) : Script Unit Unit scriptParser where
  svc := printing text
  json := "script"
  command := scriptCommand
  queryId := 3
  requests := requests_script _
  type := rfl
  query := rfl
  positive := by decide
  returns _ _ := rfl
  silent := rfl

theorem listening_opened :
    Listening false (RSession.fresh () : RSession Unit Unit).opened :=
  ⟨⟨rfl, rfl, rfl⟩, rfl, rfl, rfl⟩

theorem output_sent_once_print :
    stdoutOf 3 (sentBetween (RSession.fresh ()).opened
      (Transition.run Script.step (RSession.fresh ()).opened
        [printScript "[1] 1\n", printScript "[1] 2\n"])) =
      "[1] 1\n[1] 2\n" :=
  (output_sent_once listening_opened
    [printScript "[1] 1\n", printScript "[1] 2\n"]).2.2 3

/-- Under the query id of two scripts the client receives the text of both. -/
theorem output_not_own_of_same_query :
    ¬∀ x ∈ [printScript "[1] 1\n", printScript "[1] 2\n"],
      stdoutOf x.queryId (sentBetween (RSession.fresh ()).opened
        (Transition.run Script.step (RSession.fresh ()).opened
          [printScript "[1] 1\n", printScript "[1] 2\n"])) =
        visibleText (x.writes false) := by
  intro hown
  have hfirst := hown _ (List.mem_cons_self ..)
  revert hfirst
  decide

end Rc2Compute.Session
