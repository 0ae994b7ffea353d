import Rc2Compute.Session.Idle
import Rc2Compute.Session.Replies
import Rc2Compute.Session.Routine

/-!
# Closing

Whether a session can be closed, over whole runs.  A `close` command first
notes that the session is closed, then saves the workspace, and asks the event
loop to stop only if no exception comes out of saving.
-/

namespace Rc2Compute.Session

variable {σ ν : Type}

/-! ## What no other command touches -/

/-- The session is as closed as before. -/
structure SameEnd (s s' : RSession σ ν) : Prop where
  properlyClosed : s'.properlyClosed = s.properlyClosed
  loopBreak : s'.loopBreak = s.loopBreak

namespace SameEnd

instance : Std.Refl (SameEnd (σ := σ) (ν := ν)) where
  refl _ := ⟨rfl, rfl⟩

instance : IsTrans (RSession σ ν) SameEnd where
  trans _ _ _ hab hbc :=
    ⟨hbc.properlyClosed.trans hab.properlyClosed,
      hbc.loopBreak.trans hab.loopBreak⟩

end SameEnd

variable (svc : Services σ ν)

theorem sameEnd_commands : CommandRoutine svc SameEnd where
  called _ _ _ := ⟨rfl, rfl⟩
  sending _ _ _ := ⟨rfl, rfl⟩
  bufferFlushed _ _ := ⟨rfl, rfl⟩
  ignoring _ _ := ⟨rfl, rfl⟩
  capturing _ _ := ⟨rfl, rfl⟩
  sourcing _ _ := ⟨rfl, rfl⟩
  scheduling _ _ := ⟨rfl, rfl⟩
  resetWatch _ := ⟨rfl, rfl⟩
  reading _ _ := ⟨rfl, rfl⟩
  answering _ _ _ := ⟨rfl, rfl⟩
  watching _ _ := ⟨rfl, rfl⟩

theorem call_sameEnd (c : Call) : Act.Moves SameEnd (call svc c) :=
  (sameEnd_commands svc).anyCall_moves c

theorem setupR_sameEnd (workDir : String) (haveRData : Bool) :
    Act.Moves SameEnd (setupR svc workDir haveRData) := by
  apply (call_sameEnd svc (setDirectory workDir)).bind
  intro _
  apply (Act.Moves.modify fun _ => ⟨rfl, rfl⟩).bind
  intro _
  apply Act.Moves.bind
  · intro s
    exact Act.wp_forEach (fun rcmd _ s' hs =>
      (call_sameEnd svc (.parseEvalQNT rcmd)).wp_of hs) ⟨rfl, rfl⟩
  · intro _
    apply (Act.Moves.ite (call_sameEnd svc loadImage) (Act.Moves.pure _)).bind
    intro _
    exact Act.Moves.modify fun _ => ⟨rfl, rfl⟩

theorem openWorkspace_sameEnd (connectString : String) :
    Act.Moves SameEnd (openWorkspace svc connectString) := by
  have htest : ∀ c, Act.Moves SameEnd (test svc c) := fun c =>
    Act.Moves.get.bind fun _ => (call_sameEnd svc c).bind fun _ =>
      Act.Moves.pure _
  apply Act.Moves.get.bind
  intro s
  apply (htest _).bind
  intro made
  apply (Act.Moves.throwIf _ _).bind
  intro _
  apply (call_sameEnd svc _).bind
  intro _
  apply (Act.Moves.modify fun _ => ⟨rfl, rfl⟩).bind
  intro _
  apply (call_sameEnd svc _).bind
  intro _
  apply (call_sameEnd svc _).bind
  intro _
  apply (htest _).bind
  intro haveRData
  apply (setupR_sameEnd svc _ _).bind
  intro _
  apply (Act.Moves.modify fun _ => ⟨rfl, rfl⟩).bind
  intro _
  exact Act.Moves.modify fun _ => ⟨rfl, rfl⟩

theorem handleOpen_sameEnd (cmd : JsonCommand) :
    Act.Moves SameEnd (handleOpenCommand svc cmd) := by
  have hsession : Act.Moves SameEnd (openSession svc cmd) := by
    apply (Routine.read_moves _).bind
    intro sessionRecId
    apply (Act.Moves.modify fun _ => ⟨rfl, rfl⟩).bind
    intro _
    apply (Routine.read_moves _).bind
    intro dbhost
    apply (Routine.read_moves _).bind
    intro dbuser
    apply (Routine.read_moves _).bind
    intro dbname
    apply (Routine.read_moves _).bind
    intro dbpass
    exact openWorkspace_sameEnd svc _
  apply Act.Moves.get.bind
  intro s
  apply Act.Moves.ite (Act.Moves.pure _)
  apply (Routine.read_moves _).bind
  intro wspaceId
  apply (Act.Moves.modify fun _ => ⟨rfl, rfl⟩).bind
  intro _
  apply Routine.catchRuntimeError_moves hsession
  intro e
  exact Act.Moves.modify fun _ => ⟨rfl, rfl⟩

/-! ## Close commands -/

/-- The command of a callback that asks to close the session. -/
def closeCommand (parser : JsonParser)
    (callback : Services σ ν × Deferred) : Option JsonCommand :=
  match callback.2 with
  | .execComplete _ _ _ => none
  | .command json =>
      if json.length < 1 then none
      else
        match parser.parse json with
        | .parsed doc =>
            match JsonCommand.ofJson callback.1.uninitialised doc with
            | .ok command => if command.type = .Close then some command else none
            | .error _ => none
        | .invalidArgument | .otherException => none

/-- Whether a `close` command is obeyed: the session is open, and has not been
asked to close before. -/
def obeysClose (command : JsonCommand) (s : RSession σ ν) : Bool :=
  s.isOpen && !s.properlyClosed && command.queryId.toBool

/-- Whether a callback closes the session. -/
def closes {τ : Type} (parser : JsonParser) (s : RSession σ ν)
    (callback : Services τ ν × Deferred) : Bool :=
  (closeCommand parser callback).any (obeysClose · s)

/-- The event loop has been asked to stop, or a `close` command can still do
it. -/
def CanClose (s : RSession σ ν) : Prop :=
  s.loopBreak = true ∨ s.properlyClosed = false

/-- The calls a `close` command makes: the second one if the first one
returns. -/
def closingCalls : List Call :=
  if svc.throws saveImage = none then saveCalls else [saveImage]

/-- A `close` command that is obeyed notes it, and asks the loop to stop if
the workspace is saved without an exception. -/
structure Closed (s s' : RSession σ ν) : Prop where
  properlyClosed : s'.properlyClosed = true
  outer : s'.outer = svc.after (closingCalls svc) s.outer
  loopBreak : s'.loopBreak =
    (s.loopBreak || decide (svc.firstFailure saveCalls = none))

/-- A `close` command that is not obeyed does nothing. -/
structure Ignored (s s' : RSession σ ν) : Prop extends SameEnd s s' where
  outer : s'.outer = s.outer

variable {svc}

theorem Closed.sending {s s' : RSession σ ν} (h : Closed svc s s')
    (json : Message ν) : Closed svc s (s'.sending json) :=
  ⟨h.properlyClosed, h.outer, h.loopBreak⟩

theorem handleCloseCommand_closed {s : RSession σ ν}
    (hopen : s.properlyClosed = false) :
    Act.wp (handleCloseCommand svc) (fun _ => Closed svc s)
      (fun _ => Closed svc s) s := by
  have hunset : ¬s.properlyClosed = true := by
    rw [hopen]
    decide
  rw [handleCloseCommand, Act.wp_bind, Act.wp_get]
  beta_reduce
  rw [if_neg hunset, Act.wp_bind, Act.wp_modify, handleSaveEnvCommand,
    Act.wp_bind]
  apply call_rule
  · intro e hthrows
    constructor
    · rfl
    · rw [closingCalls, hthrows]
      rfl
    · rw [saveCalls, Services.firstFailure_cons_of_some hthrows]
      exact (Bool.or_false _).symm
  intro himage
  have hcalls : closingCalls svc = saveCalls := if_pos himage
  rw [wp_call]
  dsimp only
  split
  next hstored =>
    refine ⟨rfl, by rw [hcalls]; rfl, ?_⟩
    rw [saveCalls, Services.firstFailure_cons_of_none himage,
      Services.firstFailure_singleton_of_none hstored]
    exact (Bool.or_true _).symm
  next e hthrows =>
    refine ⟨rfl, by rw [hcalls]; rfl, ?_⟩
    rw [saveCalls, Services.firstFailure_cons_of_none himage,
      Services.firstFailure_cons_of_some hthrows]
    exact (Bool.or_false _).symm

theorem handleCloseCommand_ignored {s : RSession σ ν}
    (hclosed : s.properlyClosed = true) :
    handleCloseCommand svc s = (.returned (), s) := by
  rw [handleCloseCommand, Act.bind_apply_returned (Act.get_apply s),
    if_pos hclosed, Act.pure_apply]

/-! ## Callbacks -/

/-- A command other than `close`. -/
theorem handleDocument_sameEnd {doc : Json}
    (hother : ∀ command,
      JsonCommand.ofJson svc.uninitialised doc = .ok command →
        command.type ≠ .Close) :
    Act.Moves SameEnd (handleDocument svc doc) := by
  intro s
  have hcaught : ∀ s₀ : RSession σ ν, SameEnd s s₀ → ∀ x : Handler σ ν Unit,
      Act.Moves SameEnd x →
      Act.wp x (fun _ s' => SameEnd s (s'.querying 0))
        (Caught (fun _ => SameEnd s) fun _ => SameEnd s) s₀ := by
    intro s₀ hs₀ x hx
    refine (hx.wp_of hs₀).mono ?_ ?_
    · intro _ s' h
      exact ⟨h.properlyClosed, h.loopBreak⟩
    · intro e s' h
      rw [Caught]
      split
      · exact ⟨h.properlyClosed, h.loopBreak⟩
      · exact h
  apply handleDocument_rule
  · exact fun _ _ _ => ⟨rfl, rfl⟩
  · exact fun _ _ _ _ => ⟨rfl, rfl⟩
  · intro command _ _ _
    exact hcaught s ⟨rfl, rfl⟩ _ (handleOpen_sameEnd svc command)
  · exact fun _ _ _ _ => ⟨rfl, rfl⟩
  · exact fun _ _ _ _ _ _ _ => ⟨rfl, rfl⟩
  · intro command queryId hjson _ _ _
    apply hcaught (s.querying queryId) ⟨rfl, rfl⟩
    exact (sameEnd_commands svc).dispatchCommand_moves command
      (fun htype => absurd htype (hother command hjson))
      fun _ _ _ => ⟨rfl, rfl⟩

variable (svc) in
/-- How a `close` command ends. -/
def CloseEnd (command : JsonCommand) (s s' : RSession σ ν) : Prop :=
  if obeysClose command s then Closed svc s s' else Ignored s s'

theorem CloseEnd.of_ignored {command : JsonCommand} {s s' : RSession σ ν}
    (hunobeyed : obeysClose command s = false) (h : Ignored s s') :
    CloseEnd svc command s s' := by
  rw [CloseEnd, hunobeyed]
  exact h

/-- A `close` command that has reached its handler. -/
theorem handleCloseCommand_end {command : JsonCommand} {s : RSession σ ν}
    {queryId : ℤ} (hisOpen : s.isOpen = true)
    (hid : command.queryId = .ok queryId) :
    Act.wp (handleCloseCommand svc)
      (fun _ s' => CloseEnd svc command s (s'.querying 0))
      (Caught (fun _ => CloseEnd svc command s) fun _ => CloseEnd svc command s)
      (s.querying queryId) := by
  cases hclosed : s.properlyClosed with
  | true =>
      refine Act.wp_of_apply (handleCloseCommand_ignored hclosed) ?_
      apply CloseEnd.of_ignored
      · rw [obeysClose, hclosed, Bool.not_true, Bool.and_false,
          Bool.false_and]
      · exact ⟨⟨rfl, rfl⟩, rfl⟩
  | false =>
      have hobeyed : obeysClose command s = true := by
        rw [obeysClose, hisOpen, hclosed, hid]
        rfl
      have hend : ∀ s', Closed svc (s.querying queryId) s' →
          CloseEnd svc command s (s'.querying 0) := by
        intro s' h
        rw [CloseEnd, if_pos hobeyed]
        exact ⟨h.properlyClosed, h.outer, h.loopBreak⟩
      refine (handleCloseCommand_closed (s := s.querying queryId)
        hclosed).mono ?_ ?_
      · exact fun _ => hend
      · intro e s' h
        rw [Caught]
        split
        · exact hend _ (h.sending _)
        · rw [CloseEnd, if_pos hobeyed]
          exact ⟨h.properlyClosed, h.outer, h.loopBreak⟩

theorem handleDocument_close {doc : Json} {command : JsonCommand}
    (hjson : JsonCommand.ofJson svc.uninitialised doc = .ok command)
    (htype : command.type = .Close) (s : RSession σ ν) :
    Act.wp (handleDocument svc doc) (fun _ => CloseEnd svc command s)
      (fun _ => CloseEnd svc command s) s := by
  have hopen : command.type ≠ .Open := by
    rw [htype]
    exact nofun
  have hsame : ∀ {command'},
      JsonCommand.ofJson svc.uninitialised doc = .ok command' →
        command = command' := by
    intro command' hjson'
    exact Except.ok.inj (hjson.symm.trans hjson')
  apply handleDocument_rule
  · intro e hbad _
    rw [hjson] at hbad
    cases hbad
  · intro command' hjson' htype' _
    rw [← hsame hjson'] at htype'
    exact absurd htype' hopen
  · intro command' hjson' htype' _
    rw [← hsame hjson'] at htype'
    exact absurd htype' hopen
  · intro _ _ _ hclosed
    apply CloseEnd.of_ignored
    · rw [obeysClose, hclosed]
      rfl
    · exact ⟨⟨rfl, rfl⟩, rfl⟩
  · intro command' e hjson' _ _ hid _
    rw [← hsame hjson'] at hid
    apply CloseEnd.of_ignored
    · rw [obeysClose, hid]
      exact Bool.and_false _
    · exact ⟨⟨rfl, rfl⟩, rfl⟩
  · intro command' queryId hjson' _ hisOpen hid
    obtain rfl := hsame hjson'
    rw [dispatchCommand, htype]
    exact handleCloseCommand_end hisOpen hid

/-- A callback that asks for no `close`. -/
theorem sessionStep_sameEnd {parser : JsonParser}
    {callback : Services σ ν × Deferred}
    (hnone : closeCommand parser callback = none) (s : RSession σ ν) :
    SameEnd s (sessionStep parser s callback) := by
  obtain ⟨svc, event⟩ := callback
  cases event with
  | execComplete command queryId finfo =>
      exact ((sameEnd_commands svc).handleExecComplete_moves command queryId
        finfo).keeps s
  | command json =>
      change SameEnd s (handleJsonCommand svc parser json s).2
      rw [closeCommand] at hnone
      dsimp only at hnone
      rw [handleJsonCommand]
      split
      · exact ⟨rfl, rfl⟩
      next hlength =>
        rw [if_neg hlength] at hnone
        cases hparse : parser.parse json with
        | invalidArgument => exact ⟨rfl, rfl⟩
        | otherException =>
            apply (handleDocument_sameEnd ?_).keeps s
            intro command hjson
            cases hjson
        | parsed doc =>
            rw [hparse] at hnone
            dsimp only at hnone
            apply (handleDocument_sameEnd ?_).keeps s
            intro command hjson htype
            rw [hjson] at hnone
            dsimp only at hnone
            rw [if_pos htype] at hnone
            cases hnone

/-- A callback that asks to close the session. -/
theorem sessionStep_close {parser : JsonParser}
    {callback : Services σ ν × Deferred} {command : JsonCommand}
    (hsome : closeCommand parser callback = some command) (s : RSession σ ν) :
    CloseEnd callback.1 command s (sessionStep parser s callback) := by
  obtain ⟨svc, event⟩ := callback
  cases event with
  | execComplete command queryId finfo => cases hsome
  | command json =>
      change CloseEnd svc command s (handleJsonCommand svc parser json s).2
      rw [closeCommand] at hsome
      dsimp only at hsome
      rw [handleJsonCommand]
      split
      next hlength =>
        rw [if_pos hlength] at hsome
        cases hsome
      next hlength =>
        rw [if_neg hlength] at hsome
        cases hparse : parser.parse json with
        | invalidArgument =>
            rw [hparse] at hsome
            cases hsome
        | otherException =>
            rw [hparse] at hsome
            cases hsome
        | parsed doc =>
            rw [hparse] at hsome
            dsimp only at hsome
            split at hsome
            next command' hjson =>
              split at hsome
              next htype =>
                obtain rfl := Option.some.inj hsome
                exact (handleDocument_close hjson htype s).final
              next => cases hsome
            next => cases hsome

/-! ## Runs -/

/-- The services, with the calls that have returned beside what lies behind
them. -/
def Services.recorded (svc : Services σ ν) : Services (σ × List Call) ν where
  throws := svc.throws
  output := svc.output
  output_eq_nil := svc.output_eq_nil
  effect c outer := (svc.effect c outer.1,
    if svc.throws c = none then outer.2 ++ [c] else outer.2)
  holds c outer := svc.holds c outer.1
  parseResult := svc.parseResult
  helpPaths := svc.helpPaths
  generateUUID := svc.generateUUID
  summarises := svc.summarises
  toJson outer := svc.toJson outer.1
  toJsonOf outer := svc.toJsonOf outer.1
  jsonDelta outer := svc.jsonDelta outer.1
  sizePositive path outer := svc.sizePositive path outer.1
  copySends texPath outer := svc.copySends texPath outer.1
  filePathForId outer := svc.filePathForId outer.1
  fileInfoForId outer := svc.fileInfoForId outer.1
  foundFile outer := svc.foundFile outer.1
  resetWatch outer := (svc.resetWatch outer.1, outer.2)
  checkWatch outer := svc.checkWatch outer.1
  uninitialised := svc.uninitialised

/-- A session, and the calls that have returned. -/
abbrev RecordedSession (σ ν : Type) := RSession (σ × List Call) ν

/-- The number of times the workspace has been saved between two states. -/
def savesBetween (s s' : RecordedSession σ ν) : ℕ :=
  (s'.outer.2.drop s.outer.2.length).count .saveRData

/-- One callback of the loop. -/
def recordedStep (parser : JsonParser) (s : RecordedSession σ ν)
    (callback : Services σ ν × Deferred) : RecordedSession σ ν :=
  sessionStep parser s (callback.1.recorded, callback.2)

/-- The destructor, which closes a session that has not been closed. -/
def destroy (svc : Services σ ν) (s : RecordedSession σ ν) :
    RecordedSession σ ν :=
  if s.properlyClosed then s else (handleCloseCommand svc.recorded s).2

/-- The times the workspace is saved by the callbacks that ask to close the
session, and by the destructor at the end. -/
def closeSaves (parser : JsonParser) (last : Services σ ν) :
    RecordedSession σ ν → List (Services σ ν × Deferred) → ℕ
  | s, [] => savesBetween s (destroy last s)
  | s, callback :: callbacks =>
      (if (closeCommand parser callback).isSome then
        savesBetween s (recordedStep parser s callback)
      else 0) +
        closeSaves parser last (recordedStep parser s callback) callbacks

/-- The calls that have returned are recorded in their order. -/
theorem recorded_after (svc : Services σ ν) (calls : List Call)
    (outer : σ × List Call) :
    (svc.recorded.after calls outer).2 =
      outer.2 ++ calls.filter fun c => svc.throws c = none := by
  induction calls generalizing outer with
  | nil => exact (List.append_nil _).symm
  | cons c calls ih =>
      rw [Services.after_cons, ih]
      by_cases hreturns : svc.throws c = none
      · rw [List.filter_cons_of_pos (by simpa using hreturns)]
        simp [Services.recorded, hreturns]
      · rw [List.filter_cons_of_neg (by simpa using hreturns)]
        simp [Services.recorded, hreturns]

/-- A `close` command that is obeyed saves the workspace if no call throws. -/
theorem savesBetween_closed {svc : Services σ ν} {s s' : RecordedSession σ ν}
    (h : Closed svc.recorded s s') :
    savesBetween s s' = if svc.firstFailure saveCalls = none then 1 else 0 := by
  have hcalls : closingCalls svc.recorded = closingCalls svc := rfl
  rw [savesBetween, h.outer, recorded_after, List.drop_left, hcalls,
    closingCalls]
  cases himage : svc.throws saveImage with
  | some e =>
      rw [saveCalls, Services.firstFailure_cons_of_some himage]
      simp [himage]
  | none =>
      rw [saveCalls, Services.firstFailure_cons_of_none himage]
      cases hstore : svc.throws .saveRData with
      | some e =>
          have hreturned : [saveImage, .saveRData].filter
              (fun c => svc.throws c = none) = [saveImage] := by
            simp [himage, hstore]
          rw [Services.firstFailure_cons_of_some hstore, if_pos rfl, hreturned]
          rfl
      | none =>
          have hreturned : [saveImage, .saveRData].filter
              (fun c => svc.throws c = none) = saveCalls := by
            simp [saveCalls, himage, hstore]
          rw [Services.firstFailure_singleton_of_none hstore, if_pos rfl,
            hreturned]
          rfl

theorem savesBetween_of_outer {s s' : RecordedSession σ ν}
    (h : s'.outer = s.outer) : savesBetween s s' = 0 := by
  rw [savesBetween, h, List.drop_length]
  rfl

section Runs

variable {parser : JsonParser}

/-- A callback closes the session, or leaves it as closed as before; one that
asks for it in vain saves nothing. -/
theorem recordedStep_cases (callback : Services σ ν × Deferred)
    (s : RecordedSession σ ν) :
    (closes parser s callback = true ∧
      (closeCommand parser callback).isSome = true ∧
      s.properlyClosed = false ∧
      Closed callback.1.recorded s (recordedStep parser s callback)) ∨
    (closes parser s callback = false ∧
      SameEnd s (recordedStep parser s callback) ∧
      ((closeCommand parser callback).isSome = true →
        savesBetween s (recordedStep parser s callback) = 0)) := by
  have hcommand : closeCommand parser (callback.1.recorded, callback.2) =
      closeCommand parser callback := rfl
  cases hclose : closeCommand parser callback with
  | none =>
      refine .inr ⟨?_, sessionStep_sameEnd (hcommand.trans hclose) s, nofun⟩
      rw [closes, hclose]
      rfl
  | some command =>
      have hend := sessionStep_close (hcommand.trans hclose) s
      have hcloses : closes parser s callback = obeysClose command s := by
        rw [closes, hclose]
        rfl
      rw [CloseEnd] at hend
      rw [hcloses]
      cases hobeys : obeysClose command s with
      | true =>
          rw [hobeys, if_pos rfl] at hend
          rw [obeysClose, Bool.and_eq_true, Bool.and_eq_true,
            Bool.not_eq_true'] at hobeys
          exact .inl ⟨rfl, rfl, hobeys.1.2, hend⟩
      | false =>
          rw [hobeys] at hend
          have hignored : Ignored s (recordedStep parser s callback) := hend
          exact .inr ⟨rfl, hignored.toSameEnd,
            fun _ => savesBetween_of_outer hignored.outer⟩

/-- The loop has been asked to stop exactly if the session is noted as
closed. -/
def Consistent (s : RecordedSession σ ν) : Prop :=
  s.loopBreak = s.properlyClosed

/-- The condition on a callback: one that closes the session saves without an
exception. -/
def ClosesSaving (parser : JsonParser) (s : RecordedSession σ ν)
    (callback : Services σ ν × Deferred) : Prop :=
  closes parser s callback = true → callback.1.firstFailure saveCalls = none

theorem consistent_step {s : RecordedSession σ ν} (h : Consistent s)
    {callback : Services σ ν × Deferred}
    (hcloses : ClosesSaving parser s callback) :
    Consistent (recordedStep parser s callback) := by
  rcases recordedStep_cases callback s with
    ⟨hobeyed, -, -, hclosed⟩ | ⟨-, hsame, -⟩
  · have hsaved : callback.1.recorded.firstFailure saveCalls = none :=
      hcloses hobeyed
    rw [Consistent, hclosed.loopBreak, hclosed.properlyClosed, hsaved]
    exact Bool.or_true _
  · rw [Consistent, hsame.loopBreak, hsame.properlyClosed]
    exact h

theorem canClose_of_consistent {s : RecordedSession σ ν} (h : Consistent s) :
    CanClose s := by
  rw [CanClose, h]
  exact Bool.eq_false_or_eq_true _

/-- A session is stuck after a callback that closes it and does not save. -/
theorem closesSaving_of_canClose {s : RecordedSession σ ν} (h : Consistent s)
    {callback : Services σ ν × Deferred}
    (hcan : CanClose (recordedStep parser s callback)) :
    ClosesSaving parser s callback := by
  intro hobeyed
  rcases recordedStep_cases callback s with
    ⟨-, -, hunset, hclosed⟩ | ⟨hignored, -, -⟩
  · rw [CanClose, hclosed.properlyClosed, hclosed.loopBreak, h, hunset] at hcan
    have hrecorded : callback.1.recorded.firstFailure saveCalls = none := by
      simpa using hcan
    exact hrecorded
  · rw [hignored] at hobeyed
    cases hobeyed

/-- After every callback of a run the session can be closed exactly when every
callback that closes it saves without an exception. -/
theorem canClose_run_iff {s : RecordedSession σ ν} (h : Consistent s)
    (callbacks : List (Services σ ν × Deferred)) :
    Transition.Along (recordedStep parser)
        (fun s callback => CanClose (recordedStep parser s callback)) s
        callbacks ↔
      Transition.Along (recordedStep parser) (ClosesSaving parser) s
        callbacks := by
  induction callbacks generalizing s with
  | nil => exact Iff.rfl
  | cons callback callbacks ih =>
      constructor
      · rintro ⟨hcan, hrest⟩
        have hcloses := closesSaving_of_canClose h hcan
        exact ⟨hcloses, (ih (consistent_step h hcloses)).mp hrest⟩
      · rintro ⟨hcloses, hrest⟩
        have hstep := consistent_step h hcloses
        exact ⟨canClose_of_consistent hstep, (ih hstep).mpr hrest⟩

/-- The close path saves at most once, and not at all when it has been taken
before. -/
theorem closeSaves_le (last : Services σ ν) (s : RecordedSession σ ν)
    (callbacks : List (Services σ ν × Deferred)) :
    closeSaves parser last s callbacks ≤ if s.properlyClosed then 0 else 1 := by
  have hone : ∀ {svc : Services σ ν} {s s' : RecordedSession σ ν},
      Closed svc.recorded s s' → savesBetween s s' ≤ 1 := by
    intro svc s s' hclosed
    rw [savesBetween_closed hclosed]
    split
    · exact Nat.le_refl 1
    · exact Nat.zero_le 1
  induction callbacks generalizing s with
  | nil =>
      rw [closeSaves, destroy]
      cases hclosed : s.properlyClosed with
      | true => exact Nat.le_of_eq (savesBetween_of_outer rfl)
      | false => exact hone (handleCloseCommand_closed hclosed).final
  | cons callback callbacks ih =>
      have hrest := ih (recordedStep parser s callback)
      rw [closeSaves]
      rcases recordedStep_cases callback s with
        ⟨-, hsome, hunset, hclosed⟩ | ⟨-, hsame, hnone⟩
      · rw [hclosed.properlyClosed, if_pos rfl] at hrest
        rw [hsome, if_pos rfl, hunset]
        have hfirst := hone hclosed
        have hbound : savesBetween s (recordedStep parser s callback) +
            closeSaves parser last (recordedStep parser s callback)
              callbacks ≤ 1 := by
          omega
        exact hbound
      · rw [hsame.properlyClosed] at hrest
        split
        next hsome => rwa [hnone hsome, Nat.zero_add]
        next => rwa [Nat.zero_add]

end Runs

/-- A session that has just been constructed, and no call has returned. -/
def RecordedSession.fresh (outer : σ) : RecordedSession σ ν :=
  RSession.fresh (outer, [])

theorem consistent_fresh (outer : σ) :
    Consistent (RecordedSession.fresh outer : RecordedSession σ ν) := rfl

/-- In every run of a session, it can be closed after each callback exactly
when every callback that closes it saves without an exception; such a callback
ends the loop and saves once.  In any run the close path, with the destructor
at the end, saves at most once. -/
theorem canClose_iff (parser : JsonParser) (outer : σ)
    (callbacks : List (Services σ ν × Deferred)) (last : Services σ ν) :
    (Transition.Along (recordedStep parser)
        (fun s callback => CanClose (recordedStep parser s callback))
        (RecordedSession.fresh outer) callbacks ↔
      Transition.Along (recordedStep parser) (ClosesSaving parser)
        (RecordedSession.fresh outer) callbacks) ∧
    Transition.Along (recordedStep parser)
      (fun s callback => closes parser s callback = true →
        callback.1.firstFailure saveCalls = none →
          (recordedStep parser s callback).loopBreak = true ∧
            savesBetween s (recordedStep parser s callback) = 1)
      (RecordedSession.fresh outer) callbacks ∧
    closeSaves parser last (RecordedSession.fresh outer) callbacks ≤ 1 := by
  refine ⟨canClose_run_iff (consistent_fresh outer) callbacks, ?_,
    closeSaves_le last (RecordedSession.fresh outer) callbacks⟩
  apply Transition.along_of_mem
  intro callback _ s hobeyed hsaved
  rcases recordedStep_cases callback s with
    ⟨-, -, -, hclosed⟩ | ⟨hignored, -, -⟩
  · have hrecorded : callback.1.recorded.firstFailure saveCalls = none := hsaved
    rw [savesBetween_closed hclosed, hclosed.loopBreak, hrecorded, hsaved]
    exact ⟨Bool.or_true _, rfl⟩
  · rw [hignored] at hobeyed
    cases hobeyed

/-! ## A workspace that cannot be saved -/

/-- The parser of a client that opens a session and closes it. -/
def closeParser : JsonParser :=
  .ofTexts [
    ("open", .object [("msg", .string "open"), ("wspaceId", .integer 1),
      ("sessionRecId", .integer 1)]),
    ("close", .object [("msg", .string "close")])]

/-- The database takes no workspace. -/
def withoutStore : Services Unit Unit :=
  { Services.succeeding () with
    throws := fun c =>
      if c = .saveRData then some (FormattedException "failed to commit save rdata")
      else none }

/-- A session that is closed twice, the first time without a database. -/
def closedTwice : List (Services Unit Unit × Deferred) :=
  [(.succeeding (), .command "open"), (withoutStore, .command "close"),
    (.succeeding (), .command "close")]

/-- The second `close` command is ignored, and the loop goes on. -/
theorem canClose_fails_without_store :
    ¬Transition.Along (recordedStep closeParser)
      (fun s callback => CanClose (recordedStep closeParser s callback))
      (RecordedSession.fresh ()) closedTwice := by
  rintro ⟨-, -, hcan, -⟩
  rcases hcan with hbroken | hunset
  · revert hbroken
    decide
  · revert hunset
    decide

end Rc2Compute.Session
