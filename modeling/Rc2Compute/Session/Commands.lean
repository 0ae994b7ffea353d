import Rc2Compute.Session.Handlers

/-!
# What the other commands do

The handlers that run no script and no file, and the way from the document of
a message to the handler.
-/

namespace Rc2Compute.Session

variable {σ ν : Type}

/-- An answer that carries no query id. -/
def Message.isAnswer : Message ν → Bool
  | .variableupdate _ _ _ | .variablevalue _ _ _ | .help _ _
  | .openresponse _ _ => true
  | _ => false

/-- Between `s` and `s'` a handler has sent answers only. -/
def Answers (s s' : RSession σ ν) : Prop :=
  ∃ replies, Progress s s' replies [] ∧ ∀ m ∈ replies, m.isAnswer = true

theorem Calm.answers {s s' : RSession σ ν} (h : Calm s s') : Answers s s' :=
  ⟨[], h.toProgress, by simp⟩

theorem Answers.of_answer {s s₁ : RSession σ ν} {json : Message ν}
    (h : Calm s s₁) (hjson : json.isAnswer = true) :
    Answers s (s₁.sending json) := by
  have hconsole : json.fromConsole = false := by
    cases json with
    | results => cases hjson
    | _ => rfl
  refine ⟨[json], h.toProgress.trans (Progress.sending rfl hconsole _), ?_⟩
  intro m hm
  rwa [List.mem_singleton.mp hm]

variable (svc : Services σ ν)

/-! ## Variables -/

/-- The calls of `watcherCall`. -/
def watcherCalls (c : Call) : List Call :=
  Services.callsIf (svc.summarises c) .addSummary ++ [c]

theorem watcherCall_spec (c : Call) (s : RSession σ ν) :
    Behaves (watcherCall svc c) (svc.firstFailure (watcherCalls svc c))
      (fun _ => False) (fun _ s' => Calm s s') s := by
  have hlast : ∀ {s₁ : RSession σ ν}, Calm s s₁ →
      Act.wp (call svc c)
        (fun _ s' => svc.firstFailure [c] = none ∧ (s.Quiet → s'.Quiet) ∧
          Calm s s')
        (fun e s' => ∃ c', svc.firstFailure [c] = some ⟨c', e⟩ ∧
          Progress s s' [] [] ∧ (¬False → s.Quiet → s'.Quiet)) s₁ := by
    intro s₁ hcalm
    have hcall := hcalm.called svc c
    rw [wp_call]
    split
    next hnone =>
      exact ⟨Services.firstFailure_singleton_of_none hnone, hcall.quiet, hcall⟩
    next e hsome =>
      exact hcall.fails (Services.firstFailure_cons_of_some hsome)
  rw [watcherCall, Behaves, watcherCalls]
  cases hsummarises : svc.summarises c with
  | false => exact hlast (Calm.refl s)
  | true =>
      have hsummary := (Calm.refl s).guarded svc .addSummary
      rw [if_pos rfl, Act.wp_bind, wp_ignoringOutput, wp_call]
      dsimp only
      split
      next hnone =>
        have hrest : svc.firstFailure
            (Services.callsIf true .addSummary ++ [c]) =
              svc.firstFailure [c] :=
          Services.firstFailure_cons_of_none hnone
        rw [hrest]
        exact hlast hsummary
      next e hsome =>
        have hfirst : svc.firstFailure
            (Services.callsIf true .addSummary ++ [c]) =
              some ⟨some .addSummary, e⟩ :=
          Services.firstFailure_cons_of_some hsome
        exact hsummary.fails hfirst

/-- The calls of `handleListVariablesCommand`. -/
def listCalls (delta : Bool) : List Call :=
  watcherCalls svc (if delta then .jsonDelta else .toJson)

theorem handleListVariablesCommand_spec (delta : Bool)
    (command : JsonCommand) (s : RSession σ ν) :
    Behaves (handleListVariablesCommand svc delta command)
      (svc.firstFailure (listCalls svc delta)) (fun _ => False)
      (fun _ s' => Answers s s') s := by
  rw [handleListVariablesCommand, Behaves]
  apply (watcherCall_spec svc _ s).rule
  · intro c e s' hfailure hprogress hquiet
    exact ⟨c, hfailure, hprogress, hquiet⟩
  intro _ s₁ hnone _ hcalm
  rw [Act.wp_bind, Act.wp_get]
  beta_reduce
  rw [wp_sendJsonToClientSource]
  exact ⟨hnone, fun h => (hcalm.quiet h).sending _, Answers.of_answer hcalm rfl⟩

/-- The exception `handleGetVariableCommand` throws, if any. -/
def getVariableFailure (command : JsonCommand) : Option Failure :=
  match command.argument with
  | .error e => some ⟨none, e⟩
  | .ok name => (svc.firstFailure (watcherCalls svc (.toJsonOf name))).or
      (fieldFailure command.startTimeStr)

theorem handleGetVariableCommand_spec (command : JsonCommand)
    (s : RSession σ ν) :
    Behaves (handleGetVariableCommand svc command)
      (getVariableFailure svc command) (fun _ => False)
      (fun _ s' => Answers s s') s := by
  rw [handleGetVariableCommand, Behaves, getVariableFailure]
  apply read_rule
  · intro e harg
    exact (Calm.refl s).fails (by rw [harg])
  intro name harg
  rw [harg]
  dsimp only
  apply (watcherCall_spec svc _ s).rule
  · intro c e s' hfailure hprogress hquiet
    exact ⟨c, by rw [hfailure, Option.some_or], hprogress, hquiet⟩
  intro _ s₁ hnone _ hcalm
  rw [hnone, Option.none_or, Act.wp_bind, Act.wp_get]
  apply read_rule
  · intro e htime
    exact hcalm.fails (by rw [htime, fieldFailure])
  intro startTime htime
  rw [wp_sendJsonToClientSource, htime]
  exact ⟨rfl, fun h => (hcalm.quiet h).sending _, Answers.of_answer hcalm rfl⟩

/-- The exception `handleToggleWatch` throws, if any. -/
def toggleFailure (command : JsonCommand) : Option Failure :=
  match command.watch with
  | .error e => some ⟨none, e⟩
  | .ok watch => if watch then svc.firstFailure (listCalls svc false) else none

theorem handleToggleWatch_spec (command : JsonCommand) (s : RSession σ ν) :
    Behaves (handleToggleWatch svc command) (toggleFailure svc command)
      (fun _ => False) (fun _ s' => Answers s s') s := by
  rw [handleToggleWatch, Behaves, toggleFailure]
  apply read_rule
  · intro e hwatch
    exact (Calm.refl s).fails (by rw [hwatch])
  intro watch hwatch
  rw [hwatch, Act.wp_bind, Act.wp_modify]
  have hset : Calm s { s with watchVariables := watch } :=
    ⟨Progress.silent rfl rfl rfl rfl, fun h => h.of_flags rfl rfl rfl⟩
  cases watch with
  | false => exact ⟨rfl, hset.quiet, hset.answers⟩
  | true =>
      apply (handleListVariablesCommand_spec svc false command _).from_calm
        hset
      rintro _ s' ⟨replies, hprogress, hreplies⟩
      exact ⟨replies, hset.toProgress.trans hprogress, hreplies⟩

/-! ## Help -/

/-- The calls of `handleHelpCommand`. -/
def helpCalls (topic : String) : List Call :=
  [helpTopic topic, .helpResult]

/-- A failure that `catch (std::runtime_error &)` lets through. -/
def uncaught (failure : Option Failure) : Option Failure :=
  failure.filter fun f => !f.error.type.isRuntimeError

theorem uncaught_of_runtime {c : Option Call} {e : CxxException}
    (he : e.type.isRuntimeError = true) : uncaught (some ⟨c, e⟩) = none := by
  simp [uncaught, he]

theorem uncaught_of_other {c : Option Call} {e : CxxException}
    (he : ¬e.type.isRuntimeError = true) :
    uncaught (some ⟨c, e⟩) = some ⟨c, e⟩ := by
  simp [uncaught, he]

/-- The exception `handleHelpCommand` throws, if any. -/
def helpFailure (command : JsonCommand) : Option Failure :=
  match command.argument with
  | .error e => some ⟨none, e⟩
  | .ok topic => uncaught (svc.firstFailure (helpCalls topic))

/-- `ignoreOutput` is raised during the calls. -/
theorem handleHelpCommand_spec (command : JsonCommand) (s : RSession σ ν) :
    Behaves (handleHelpCommand svc command) (helpFailure svc command)
      (fun c => c ≠ none) (fun _ s' => Answers s s') s := by
  rw [handleHelpCommand, Behaves, helpFailure]
  apply read_rule
  · intro e harg
    exact (Calm.refl s).fails (by rw [harg])
  intro topic harg
  rw [harg, Act.wp_bind, Act.wp_modify, Act.wp_bind, wp_catchRuntimeError]
  dsimp only
  have hhelp := (Progress.ignoring true s).trans
    (Progress.called svc (helpTopic topic) _)
  have hresult := hhelp.trans (Progress.called svc .helpResult _)
  have hcaught : ∀ c e (s' : RSession σ ν), Progress s s' [] [] →
      (s.Quiet → (s'.ignoring false).Quiet) →
      svc.firstFailure (helpCalls topic) = some ⟨some c, e⟩ →
      e.type.isRuntimeError = true →
      uncaught (svc.firstFailure (helpCalls topic)) = none ∧
        (s.Quiet → (s'.ignoring false).Quiet) ∧
        Answers s (s'.ignoring false) := by
    intro c e s' hprogress hquiet hfailure hruntime
    rw [hfailure, uncaught_of_runtime hruntime]
    exact ⟨rfl, hquiet, [], hprogress.trans (Progress.ignoring false s'),
      by simp⟩
  have hthrown : ∀ c e (s' : RSession σ ν), Progress s s' [] [] →
      svc.firstFailure (helpCalls topic) = some ⟨some c, e⟩ →
      ¬e.type.isRuntimeError = true →
      ∃ c, uncaught (svc.firstFailure (helpCalls topic)) = some ⟨c, e⟩ ∧
        Progress s s' [] [] ∧ (¬c ≠ none → s.Quiet → s'.Quiet) := by
    intro c e s' hprogress hfailure hother
    rw [hfailure, uncaught_of_other hother]
    exact ⟨_, rfl, hprogress, fun hraised => absurd (by simp) hraised⟩
  apply call_rule
  · intro e hthrows
    have hfailure : svc.firstFailure (helpCalls topic) = some ⟨_, e⟩ :=
      Services.firstFailure_cons_of_some hthrows
    split
    next hruntime =>
      exact hcaught _ e _ hhelp
        (fun h => ⟨rfl, h.captureStdOut, h.sourceInProgress⟩) hfailure hruntime
    next hother => exact hthrown _ e _ hhelp hfailure hother
  intro hlooked
  apply call_rule
  · intro e hthrows
    have hfailure : svc.firstFailure (helpCalls topic) = some ⟨_, e⟩ :=
      (Services.firstFailure_cons_of_none hlooked).trans
        (Services.firstFailure_cons_of_some hthrows)
    split
    next hruntime =>
      refine hcaught _ e _ hresult (fun h => ⟨rfl, ?_, ?_⟩) hfailure hruntime
      · simpa using h.captureStdOut
      · simpa using h.sourceInProgress
    next hother => exact hthrown _ e _ hresult hfailure hother
  intro hread
  have hnone : svc.firstFailure (helpCalls topic) = none :=
    (Services.firstFailure_cons_of_none hlooked).trans
      (Services.firstFailure_singleton_of_none hread)
  rw [wp_sendJsonToClientSource, hnone]
  refine ⟨rfl, fun h => ⟨rfl, ?_, ?_⟩, [.help topic svc.helpPaths], ?_, ?_⟩
  · simpa using h.captureStdOut
  · simpa using h.sourceInProgress
  · exact (hresult.trans (Progress.sending rfl rfl _)).trans
      (Progress.ignoring false _)
  · intro m hm
    rw [List.mem_singleton.mp hm]
    rfl

/-! ## Saving and closing -/

/-- The calls of `handleSaveEnvCommand`. -/
def saveCalls : List Call :=
  [saveImage, .saveRData]

theorem handleSaveEnvCommand_spec (s : RSession σ ν) :
    Behaves (handleSaveEnvCommand svc) (svc.firstFailure saveCalls)
      (fun _ => False) (fun _ s' => Calm s s') s := by
  rw [handleSaveEnvCommand, Behaves, saveCalls]
  have hsave := (Calm.refl s).called svc saveImage
  apply call_rule
  · intro e hthrows
    exact hsave.fails (Services.firstFailure_cons_of_some hthrows)
  intro hsaved
  have hstore := hsave.called svc .saveRData
  rw [Services.firstFailure_cons_of_none hsaved, wp_call]
  dsimp only
  split
  next hnone =>
    exact ⟨Services.firstFailure_singleton_of_none hnone, hstore.quiet, hstore⟩
  next e hsome =>
    exact hstore.fails (Services.firstFailure_cons_of_some hsome)

/-- The exception `handleCloseCommand` throws, if any. -/
def closeFailure (s : RSession σ ν) : Option Failure :=
  if s.properlyClosed then none else svc.firstFailure saveCalls

theorem handleCloseCommand_spec (s : RSession σ ν) :
    Behaves (handleCloseCommand svc) (closeFailure svc s)
      (fun _ => False) (fun _ s' => Calm s s') s := by
  rw [handleCloseCommand, Behaves, closeFailure, Act.wp_bind, Act.wp_get]
  beta_reduce
  split
  next => exact ⟨rfl, fun h => h, Calm.refl s⟩
  next =>
    have hclose : Calm s { s with properlyClosed := true } :=
      ⟨Progress.silent rfl rfl rfl rfl, fun h => h.of_flags rfl rfl rfl⟩
    rw [Act.wp_bind, Act.wp_modify]
    apply (handleSaveEnvCommand_spec svc _).rule
    · intro c e s' hfailure hprogress hquiet
      exact ⟨c, hfailure, hclose.toProgress.trans hprogress,
        fun hraised h => hquiet hraised (hclose.quiet h)⟩
    intro _ s₁ hnone _ hsaved
    have hend := hclose.trans hsaved
    refine ⟨hnone, fun h => (hend.quiet h).of_flags rfl rfl rfl, ?_⟩
    exact hend.trans ⟨Progress.silent rfl rfl rfl rfl,
      fun h => h.of_flags rfl rfl rfl⟩

/-! ## Opening -/

/-- The calls made while R is prepared with output ignored. -/
def preparingCalls (haveRData : Bool) : List Call :=
  setupCommands.map .parseEvalQNT ++ Services.callsIf haveRData loadImage

/-- The calls of `handleOpenCommand` made with `ignoreOutput` raised. -/
def openRaised (c : Option Call) : Prop :=
  ∃ call ∈ preparingCalls true, c = some call

theorem forEach_call_spec (rcmds : List String) (s : RSession σ ν) :
    Act.wp (Act.forEach rcmds fun rcmd => call svc (.parseEvalQNT rcmd))
      (fun _ s' => svc.firstFailure (rcmds.map .parseEvalQNT) = none ∧
        Progress s s' [] [] ∧ s'.captureStdOut = s.captureStdOut ∧
        s'.sourceInProgress = s.sourceInProgress)
      (fun e s' => ∃ call ∈ rcmds.map .parseEvalQNT,
        svc.firstFailure (rcmds.map .parseEvalQNT) = some ⟨some call, e⟩ ∧
          Progress s s' [] []) s := by
  induction rcmds generalizing s with
  | nil => exact ⟨rfl, Progress.refl s, rfl, rfl⟩
  | cons rcmd rcmds ih =>
      rw [Act.forEach_cons]
      have hcall := Progress.called svc (.parseEvalQNT rcmd) s
      apply call_rule
      · intro e hthrows
        exact ⟨_, List.mem_cons_self,
          Services.firstFailure_cons_of_some hthrows, hcall⟩
      intro hreturned
      have hfirst : svc.firstFailure
          ((rcmd :: rcmds).map .parseEvalQNT) =
            svc.firstFailure (rcmds.map .parseEvalQNT) :=
        Services.firstFailure_cons_of_none hreturned
      rw [hfirst]
      refine (ih _).mono ?_ ?_
      · rintro _ s' ⟨hnone, hprogress, hcapture, hsource⟩
        exact ⟨hnone, hcall.trans hprogress, hcapture, hsource⟩
      · rintro e s' ⟨c, hmem, hsome, hprogress⟩
        exact ⟨c, List.mem_cons_of_mem _ hmem, hsome,
          hcall.trans hprogress⟩

/-- The calls of `setupR`. -/
def setupCalls (workDir : String) (haveRData : Bool) : List Call :=
  setDirectory workDir :: preparingCalls haveRData

theorem setupR_spec (workDir : String) (haveRData : Bool)
    (s : RSession σ ν) :
    Behaves (setupR svc workDir haveRData)
      (svc.firstFailure (setupCalls workDir haveRData)) openRaised
      (fun _ s' => Calm s s') s := by
  rw [setupR, Behaves, setupCalls]
  have hmove := (Calm.refl s).called svc (setDirectory workDir)
  apply call_rule
  · intro e hthrows
    exact hmove.fails (Services.firstFailure_cons_of_some hthrows)
  intro hmoved
  rw [Services.firstFailure_cons_of_none hmoved, Act.wp_bind, Act.wp_modify,
    Act.wp_bind, preparingCalls, Services.firstFailure_append]
  refine (forEach_call_spec svc setupCommands _).mono ?_ ?_
  · rintro _ s₁ ⟨hnone, hprogress, hcapture, hsource⟩
    have hsetup := (hmove.toProgress.trans (Progress.ignoring true _)).trans
      hprogress
    rw [hnone, Option.none_or]
    apply callIf_rule
    · intro e hthrows
      refine ⟨_, Services.firstFailure_callsIf_singleton_of_some hthrows,
        hsetup.trans (Progress.called svc loadImage _), fun hraised => ?_⟩
      exact absurd ⟨loadImage, by simp [preparingCalls, Services.callsIf],
        rfl⟩ hraised
    intro hloaded
    have hend := (hsetup.trans (Progress.calledIf svc haveRData loadImage
      _)).trans (Progress.ignoring false _)
    have hquiet : s.Quiet →
        ((s₁.calledIf svc haveRData loadImage).ignoring false).Quiet := by
      intro h
      refine ⟨rfl, ?_, ?_⟩
      · simpa [hcapture] using h.captureStdOut
      · simpa [hsource] using h.sourceInProgress
    exact ⟨Services.firstFailure_callsIf_singleton_of_none hloaded, hquiet,
      hend, hquiet⟩
  · rintro e s₁ ⟨c, hmem, hsome, hprogress⟩
    refine ⟨some c, by rw [hsome, Option.some_or], ?_, fun hraised => ?_⟩
    · exact (hmove.toProgress.trans (Progress.ignoring true _)).trans
        hprogress
    · exact absurd ⟨c, List.mem_append_left _ hmem, rfl⟩ hraised

/-- The calls of `openWorkspace` from the new directory to the workspace. -/
def connectCalls (connectString : String) (s : RSession σ ν) : List Call :=
  [.temporaryDirectory (temporaryPath svc), .connect connectString,
    .initFileManager (temporaryPath svc) s.wspaceId s.sessionRecId]

/-- Whether the workspace has an `.RData` file. -/
def hasRData (connectString : String) (s : RSession σ ν) : Bool :=
  svc.holds .loadRData (svc.after
    (.makeDirectoryPath (temporaryPath svc) ::
      connectCalls svc connectString s) s.outer)

/-- The exception `openWorkspace` throws, if any. -/
def workspaceFailure (connectString : String) (s : RSession σ ν) :
    Option Failure :=
  (svc.firstFailure [.makeDirectoryPath (temporaryPath svc)]).or <|
    if svc.holds (.makeDirectoryPath (temporaryPath svc)) s.outer then
      svc.firstFailure (connectCalls svc connectString s ++ .loadRData ::
        setupCalls (temporaryPath svc) (hasRData svc connectString s))
    else some ⟨none, directoryError⟩

/-- What `openSession` sends when it returns. -/
def Opens (s s' : RSession σ ν) : Prop :=
  ∃ s₁, Progress s s₁ [.openresponse true none] [] ∧ s' = s₁.opened

theorem openWorkspace_spec (connectString : String) (s : RSession σ ν) :
    Behaves (openWorkspace svc connectString)
      (workspaceFailure svc connectString s) openRaised
      (fun _ s' => Opens s s') s := by
  rw [openWorkspace, Behaves, workspaceFailure, Act.wp_bind, Act.wp_get]
  have hmake := (Calm.refl s).called svc
    (.makeDirectoryPath (temporaryPath svc))
  apply test_rule
  · intro e hthrows
    have hfirst : svc.firstFailure [.makeDirectoryPath (temporaryPath svc)] =
        some ⟨_, e⟩ := Services.firstFailure_cons_of_some hthrows
    exact hmake.fails (by rw [hfirst, Option.some_or])
  intro hmade
  rw [Services.firstFailure_singleton_of_none hmade, Option.none_or,
    Act.wp_bind, Act.wp_throwIf]
  constructor
  · intro hfailed
    have hholds : ¬svc.holds (.makeDirectoryPath (temporaryPath svc)) s.outer =
        true := by simpa using hfailed
    exact hmake.fails (if_neg hholds)
  intro hmkdir
  have hholds : svc.holds (.makeDirectoryPath (temporaryPath svc)) s.outer =
      true := by simpa using hmkdir
  rw [if_pos hholds, connectCalls]
  simp only [List.cons_append, List.nil_append]
  have hdirectory := hmake.called svc
    (.temporaryDirectory (temporaryPath svc))
  apply call_rule
  · intro e hthrows
    exact hdirectory.fails (Services.firstFailure_cons_of_some hthrows)
  intro hcreated
  rw [Services.firstFailure_cons_of_none hcreated, Act.wp_bind,
    Act.wp_modify]
  have hmoved : Calm s (((s.called svc (.makeDirectoryPath
      (temporaryPath svc))).called svc (.temporaryDirectory
        (temporaryPath svc))).movingTo (temporaryPath svc)) :=
    hdirectory.trans ⟨Progress.silent rfl rfl rfl rfl,
      fun h => h.of_flags rfl rfl rfl⟩
  have hconnected := hmoved.called svc (.connect connectString)
  apply call_rule
  · intro e hthrows
    exact hconnected.fails (Services.firstFailure_cons_of_some hthrows)
  intro hconn
  rw [Services.firstFailure_cons_of_none hconn]
  have hinit := hconnected.called svc
    (.initFileManager (temporaryPath svc) s.wspaceId s.sessionRecId)
  apply call_rule
  · intro e hthrows
    exact hinit.fails (Services.firstFailure_cons_of_some hthrows)
  intro hinited
  rw [Services.firstFailure_cons_of_none hinited]
  have hload := hinit.called svc .loadRData
  apply test_rule
  · intro e hthrows
    exact hload.fails (Services.firstFailure_cons_of_some hthrows)
  intro hloaded
  rw [Services.firstFailure_cons_of_none hloaded]
  have hdata : svc.holds .loadRData (((((s.called svc (.makeDirectoryPath
      (temporaryPath svc))).called svc (.temporaryDirectory
        (temporaryPath svc))).movingTo (temporaryPath svc)).called svc
          (.connect connectString)).called svc (.initFileManager
            (temporaryPath svc) s.wspaceId s.sessionRecId)).outer =
      hasRData svc connectString s := rfl
  rw [hdata]
  apply (setupR_spec svc _ _ _).rule
  · intro c e s' hfailure hprogress hquiet
    exact ⟨c, hfailure, hload.toProgress.trans hprogress,
      fun hraised h => hquiet hraised (hload.quiet h)⟩
  intro _ s₁ hnone _ hsetup
  have hready := hload.trans hsetup
  rw [Act.wp_bind, wp_sendJsonToClientSource, Act.wp_modify]
  refine ⟨hnone, fun h => ?_, s₁.sending (.openresponse true none), ?_, rfl⟩
  · exact ((hready.quiet h).sending (.openresponse true none)).of_flags rfl
      rfl rfl
  · exact hready.toProgress.trans (Progress.sending rfl rfl s₁)

/-- A field of an `open` command that has been read. -/
def textField (cmd : JsonCommand) (key : String) : String :=
  match cmd.valueForKey key with
  | .ok text => text
  | .error _ => ""

def sessionRecIdField (cmd : JsonCommand) : ℤ :=
  match cmd.cmd.index "sessionRecId" >>= Json.getInt with
  | .ok id => id
  | .error _ => 0

/-- The failure of reading the fields `openSession` reads. -/
def openFieldsFailure (cmd : JsonCommand) : Option Failure :=
  (fieldFailure (cmd.cmd.index "sessionRecId" >>= Json.getInt)).or <|
    (fieldFailure (cmd.valueForKey "dbhost")).or <|
      (fieldFailure (cmd.valueForKey "dbuser")).or <|
        (fieldFailure (cmd.valueForKey "dbname")).or
          (fieldFailure (cmd.valueForKey "dbpass"))

/-- The exception `openSession` throws, if any. -/
def openFailure (cmd : JsonCommand) (s : RSession σ ν) : Option Failure :=
  (openFieldsFailure cmd).or (workspaceFailure svc
    (connectString (textField cmd "dbuser") (textField cmd "dbhost")
      (textField cmd "dbname") (textField cmd "dbpass"))
    { s with sessionRecId := sessionRecIdField cmd })

theorem openSession_spec (cmd : JsonCommand) (s : RSession σ ν) :
    Behaves (openSession svc cmd) (openFailure svc cmd s) openRaised
      (fun _ s' => Opens s s') s := by
  rw [openSession, Behaves, openFailure, openFieldsFailure]
  apply read_rule
  · intro e hid
    exact (Calm.refl s).fails (by rw [hid]; rfl)
  intro sessionRecId hid
  have hset : Calm s { s with sessionRecId := sessionRecId } :=
    ⟨Progress.silent rfl rfl rfl rfl, fun h => h.of_flags rfl rfl rfl⟩
  rw [Act.wp_bind, Act.wp_modify]
  apply read_rule
  · intro e hhost
    exact hset.fails (by rw [hid, hhost]; rfl)
  intro dbhost hhost
  apply read_rule
  · intro e huser
    exact hset.fails (by rw [hid, hhost, huser]; rfl)
  intro dbuser huser
  apply read_rule
  · intro e hname
    exact hset.fails (by rw [hid, hhost, huser, hname]; rfl)
  intro dbname hname
  apply read_rule
  · intro e hpass
    exact hset.fails (by rw [hid, hhost, huser, hname, hpass]; rfl)
  intro dbpass hpass
  have hfields : openFieldsFailure cmd = none := by
    simp [openFieldsFailure, hid, hhost, huser, hname, hpass, fieldFailure]
  have hstate : sessionRecIdField cmd = sessionRecId := by
    rw [sessionRecIdField, hid]
  have htexts : textField cmd "dbuser" = dbuser ∧
      textField cmd "dbhost" = dbhost ∧ textField cmd "dbname" = dbname ∧
      textField cmd "dbpass" = dbpass := by
    simp [textField, hhost, huser, hname, hpass]
  obtain ⟨hu, hh, hn, hp⟩ := htexts
  rw [← openFieldsFailure, hfields, hu, hh, hn, hp, hstate, Option.none_or]
  apply (openWorkspace_spec svc _ _).from_calm hset
  rintro _ s' ⟨s₁, hprogress, rfl⟩
  exact ⟨s₁, hset.toProgress.trans hprogress, rfl⟩

/-- What goes wrong while a session is being opened, if anything does. -/
def startFailure (cmd : JsonCommand) (s : RSession σ ν) : Option Failure :=
  match cmd.cmd.index "wspaceId" >>= Json.getInt with
  | .error e => some ⟨none, e⟩
  | .ok wspaceId => openFailure svc cmd { s with wspaceId := wspaceId }

/-- Between `s` and `s'` a session that was not open has been answered. -/
def OpenEnd (s s' : RSession σ ν) : Prop :=
  ∃ s₁, Answers s s₁ ∧ (s' = s₁ ∨ s' = s₁.opened)

theorem type_of_wspaceId {cmd : JsonCommand} {e : CxxException}
    (h : (cmd.cmd.index "wspaceId" >>= Json.getInt) = .error e) :
    e.type = .domainError := by
  cases hindex : cmd.cmd.index "wspaceId" with
  | error e' =>
      rw [hindex] at h
      cases h
      exact Json.type_of_index hindex
  | ok v =>
      rw [hindex] at h
      exact Json.type_of_getInt h

/-- An exception is a failure of the start; a caught one leaves
`ignoreOutput` as it was. -/
theorem handleOpenCommand_spec (cmd : JsonCommand) {s : RSession σ ν}
    (hopen : s.isOpen = false) :
    Act.wp (handleOpenCommand svc cmd)
      (fun _ s' => ((∀ f ∈ startFailure svc cmd s, ¬openRaised f.call) →
        s.Quiet → s'.Quiet) ∧ OpenEnd s s')
      (fun e s' => ∃ c, startFailure svc cmd s = some ⟨c, e⟩ ∧
        ¬e.type.isRuntimeError = true ∧
        Progress s s' [] [] ∧ (¬openRaised c → s.Quiet → s'.Quiet)) s := by
  rw [handleOpenCommand, Act.wp_bind, Act.wp_get]
  beta_reduce
  rw [if_neg (by simp [hopen]), startFailure]
  apply read_rule
  · intro e hid
    rw [hid]
    refine ⟨none, rfl, ?_, Progress.refl s, fun _ h => h⟩
    rw [type_of_wspaceId hid]
    decide
  intro wspaceId hid
  rw [hid]
  have hset : Calm s { s with wspaceId := wspaceId } :=
    ⟨Progress.silent rfl rfl rfl rfl, fun h => h.of_flags rfl rfl rfl⟩
  rw [Act.wp_bind, Act.wp_modify, wp_catchRuntimeError]
  refine ((openSession_spec svc cmd _).from_calm hset fun _ _ h => h).mono ?_ ?_
  · rintro _ s' ⟨-, hquiet, s₁, hprogress, rfl⟩
    refine ⟨fun _ => hquiet, s₁, ⟨_, hset.toProgress.trans hprogress, ?_⟩,
      Or.inr rfl⟩
    intro m hm
    rw [List.mem_singleton.mp hm]
    rfl
  · rintro e s' ⟨c, hsome, hprogress, hquiet⟩
    split
    next hruntime =>
      rw [wp_sendJsonToClientSource]
      refine ⟨fun hraised h => ?_, _, ⟨_, hprogress.trans
        (Progress.sending rfl rfl s'), ?_⟩, Or.inl rfl⟩
      · exact (hquiet (hraised _ hsome) h).sending _
      · intro m hm
        rw [List.mem_singleton.mp hm]
        rfl
    next hother =>
      exact ⟨c, hsome, hother, hprogress, hquiet⟩

/-! ## Every command -/

/-- The exception a `listVariables` command throws, if any. -/
def listFailure (command : JsonCommand) : Option Failure :=
  match command.delta with
  | .error e => some ⟨none, e⟩
  | .ok delta => svc.firstFailure (listCalls svc delta)

/-- The exception `dispatchCommand` throws, if any. -/
def dispatchFailure (command : JsonCommand) (s : RSession σ ν) :
    Option Failure :=
  match command.type with
  | .Close => closeFailure svc s
  | .ExecScript => scriptFailure svc command s
  | .ExecFile => fileFailure svc command s
  | .Help => helpFailure svc command
  | .ListVariables => listFailure svc command
  | .GetVariable => getVariableFailure svc command
  | .ToggleWatch => toggleFailure svc command
  | .SaveData => svc.firstFailure saveCalls
  | .ClearFileChanges | .Open | .Unknown => none

/-- The calls of `dispatchCommand` made with a flag raised. -/
def dispatchRaised (command : JsonCommand) (s : RSession σ ν)
    (c : Option Call) : Prop :=
  match command.type with
  | .ExecScript => c = some pngoff
  | .ExecFile =>
      ∃ fpath ∈ commandFile svc command s, fileRaised svc fpath c
  | .Help => c ≠ none
  | _ => False

/-- What `dispatchCommand` sends, and what it puts in the queue. -/
def DispatchEnd (command : JsonCommand) (s s' : RSession σ ν) : Prop :=
  match command.type with
  | .ExecScript =>
      Progress s s' (scriptReplies svc s) (scriptEvents svc command s)
  | .ExecFile => FileCommandEnd svc command s s'
  | _ => Answers s s'

theorem handleListVariables_spec (command : JsonCommand) (s : RSession σ ν) :
    Behaves (do
        let delta ← read command.delta
        handleListVariablesCommand svc delta command)
      (listFailure svc command) (fun _ => False)
      (fun _ s' => Answers s s') s := by
  rw [Behaves, listFailure]
  apply read_rule
  · intro e hdelta
    exact (Calm.refl s).fails (by rw [hdelta])
  intro delta hdelta
  rw [hdelta]
  exact handleListVariablesCommand_spec svc delta command s

/-- A handler that changes nothing but what lies behind the services. -/
theorem Behaves.of_calm {α : Type} {x : Handler σ ν α}
    {failure : Option Failure} {raised : Option Call → Prop}
    {s : RSession σ ν}
    (h : Behaves x failure raised (fun _ s' => Calm s s') s) :
    Behaves x failure raised (fun _ s' => Answers s s') s :=
  h.mono (fun _ _ ⟨hnone, hquiet, hcalm⟩ => ⟨hnone, hquiet, hcalm.answers⟩)
    fun _ _ h => h

theorem dispatchCommand_spec (command : JsonCommand) (s : RSession σ ν) :
    Behaves (dispatchCommand svc command) (dispatchFailure svc command s)
      (dispatchRaised svc command s)
      (fun _ s' => DispatchEnd svc command s s') s := by
  unfold dispatchCommand dispatchFailure dispatchRaised DispatchEnd
  cases command.type with
  | Close => exact (handleCloseCommand_spec svc s).of_calm
  | ClearFileChanges =>
      have hmoved := (Calm.refl s).moving svc.resetWatch
      exact ⟨rfl, hmoved.quiet, hmoved.answers⟩
  | ExecScript => exact handleExecuteScript_spec svc command s
  | ExecFile => exact executeFile_spec svc command s
  | Help => exact handleHelpCommand_spec svc command s
  | ListVariables => exact handleListVariables_spec svc command s
  | GetVariable => exact handleGetVariableCommand_spec svc command s
  | ToggleWatch => exact handleToggleWatch_spec svc command s
  | SaveData => exact (handleSaveEnvCommand_spec svc s).of_calm
  | Open | Unknown =>
      exact ⟨rfl, fun h => h, (Calm.refl s).answers⟩

/-! ## From the document to the handler -/

theorem type_of_ofJson {uninitialised : CommandType} {doc : Json}
    {e : CxxException} (h : JsonCommand.ofJson uninitialised doc = .error e) :
    e.type = .domainError := by
  rw [JsonCommand.ofJson] at h
  cases hindex : doc.index "msg" with
  | error e' =>
      rw [hindex] at h
      cases h
      exact Json.type_of_index hindex
  | ok msg =>
      rw [hindex] at h
      cases hmsg : msg.getString with
      | error e' =>
          have herror : e' = e := by simpa [hmsg, bind, Except.bind] using h
          exact herror ▸ Json.type_of_getString hmsg
      | ok cmdStr =>
          simp [hmsg, bind, Except.bind, pure, Except.pure] at h

theorem type_of_queryId {command : JsonCommand} {e : CxxException}
    (h : command.queryId = .error e) : e.type = .domainError :=
  Json.type_of_value (fun _ _ hv => Json.type_of_getInt hv) h

/-- What `handleJsonCommand` does with an exception of a command. -/
def Caught (post : Unit → RSession σ ν → Prop)
    (exn : CxxException → RSession σ ν → Prop) (e : CxxException)
    (s : RSession σ ν) : Prop :=
  if e.type.isRuntimeError then
    post () ((s.sending (commandError e)).querying 0)
  else exn e s

/-- The rule of `handleDocument`: one case for each way through it. -/
theorem handleDocument_rule {doc : Json} {s : RSession σ ν}
    {post : Unit → RSession σ ν → Prop}
    {exn : CxxException → RSession σ ν → Prop}
    (hbad : ∀ e, JsonCommand.ofJson svc.uninitialised doc = .error e →
      ¬e.type.isRuntimeError = true → exn e s)
    (hduplicate : ∀ command,
      JsonCommand.ofJson svc.uninitialised doc = .ok command →
      command.type = .Open → s.isOpen = true → post () s)
    (hopening : ∀ command,
      JsonCommand.ofJson svc.uninitialised doc = .ok command →
      command.type = .Open → s.isOpen = false →
      Act.wp (handleOpenCommand svc command)
        (fun _ s' => post () (s'.querying 0)) (Caught post exn) s)
    (hclosed : ∀ command,
      JsonCommand.ofJson svc.uninitialised doc = .ok command →
      command.type ≠ .Open → s.isOpen = false → post () (s.querying 0))
    (hfield : ∀ command e,
      JsonCommand.ofJson svc.uninitialised doc = .ok command →
      command.type ≠ .Open → s.isOpen = true →
      command.queryId = .error e → ¬e.type.isRuntimeError = true → exn e s)
    (hcommand : ∀ command queryId,
      JsonCommand.ofJson svc.uninitialised doc = .ok command →
      command.type ≠ .Open → s.isOpen = true →
      command.queryId = .ok queryId →
      Act.wp (dispatchCommand svc command)
        (fun _ s' => post () (s'.querying 0)) (Caught post exn)
        (s.querying queryId)) :
    Act.wp (handleDocument svc doc) post exn s := by
  have hcatch : ∀ e s', Caught post exn e s' →
      if e.type.isRuntimeError then
        Act.wp (do
          sendJsonToClientSource (commandError e)
          pure false)
          (fun returned => Act.wp
            (if !returned then Act.modify (RSession.querying 0) else pure ())
            post exn) exn s'
      else exn e s' := by
    intro e s' h
    rw [Caught] at h
    split
    next hruntime => rwa [if_pos hruntime] at h
    next hother => rwa [if_neg hother] at h
  rw [handleDocument, Act.wp_bind, wp_catchRuntimeError]
  apply read_rule
  · intro e herror
    have hother : ¬e.type.isRuntimeError = true := by
      rw [type_of_ofJson herror]
      decide
    rw [if_neg hother]
    exact hbad e herror hother
  intro command hjson
  rw [handleTyped, Act.wp_bind, Act.wp_get]
  beta_reduce
  split
  next htype =>
    split
    next hopen => exact hduplicate command hjson htype hopen
    next hopen =>
      rw [Act.wp_bind]
      refine (hopening command hjson htype (by simpa using hopen)).mono ?_
        hcatch
      exact fun _ _ h => h
  next htype =>
    rw [Act.wp_bind, handleCommand, Act.wp_bind, Act.wp_get]
    beta_reduce
    split
    next hopen => exact hclosed command hjson htype (by simpa using hopen)
    next hopen =>
      have hopen' : s.isOpen = true := by simpa using hopen
      apply read_rule
      · intro e hid
        have hother : ¬e.type.isRuntimeError = true := by
          rw [type_of_queryId hid]
          decide
        rw [if_neg hother]
        exact hfield command e hjson htype hopen' hid hother
      intro queryId hid
      rw [Act.wp_bind, Act.wp_modify]
      refine (hcommand command queryId hjson htype hopen' hid).mono ?_ hcatch
      exact fun _ _ h => h

end Rc2Compute.Session
