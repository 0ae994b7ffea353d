import Rc2Compute.Session.Calls

/-!
# What the handlers do

For each handler the calls it makes when none of them throws, and one spec:
when it returns none of the calls has thrown, and the replies and the events
are known; when it throws, the exception is that of the first call that does.
-/

namespace Rc2Compute.Session

open Files (FileInfo)

variable {σ ν : Type}

variable (svc : Services σ ν)

/-! ## Scripts -/

/-- The calls of `handleExecuteScript`. -/
def scriptCalls (argument : String) (sendDelta : Bool) : List Call :=
  Services.callsIf sendDelta .captureEnvironment ++
    [.parseEvalR argument, pngoff]

/-- The exception `handleExecuteScript` throws, if any. -/
def scriptFailure (command : JsonCommand) (s : RSession σ ν) :
    Option Failure :=
  match command.argument, sendsDelta command s with
  | .error e, _ | .ok _, .error e => some ⟨none, e⟩
  | .ok argument, .ok sendDelta =>
      svc.firstFailure (scriptCalls argument sendDelta)

/-- What `handleExecuteScript` sends. -/
def scriptReplies (s : RSession σ ν) : List (Message ν) :=
  if svc.parseResult = .PE_INCOMPLETE then
    [formatStringAsJson s incompleteStatement true .session]
  else []

/-- What `handleExecuteScript` puts in the queue. -/
def scriptEvents (command : JsonCommand) (s : RSession σ ν) :
    List Deferred :=
  if svc.parseResult = .PE_SUCCESS then
    .execComplete command s.currentQueryId noFile ::
      match sendsDelta command s with
      | .ok true => [.command listVariablesDelta]
      | _ => []
  else []

theorem scriptFailure_eq {command : JsonCommand} {s : RSession σ ν}
    {argument : String} {sendDelta : Bool}
    (harg : command.argument = .ok argument)
    (hdelta : sendsDelta command s = .ok sendDelta) :
    scriptFailure svc command s =
      svc.firstFailure (scriptCalls argument sendDelta) := by
  simp [scriptFailure, harg, hdelta]

/-- The end of `handleExecuteScript`, by the result of the parser. -/
theorem scriptEnd_spec {command : JsonCommand} {s s₁ : RSession σ ν}
    {sendDelta : Bool} (hdelta : sendsDelta command s = .ok sendDelta)
    (hend : Calm s s₁) (hsource : s₁.sourceInProgress = s.sourceInProgress) :
    Act.wp
      (match svc.parseResult with
      | .PE_SUCCESS => do
          scheduleExecCompleteAcknowledgmenet command noFile
          if sendDelta then scheduleDelayedCommand
      | .PE_INCOMPLETE => sendTextToClient incompleteStatement true .session
      | _ => pure ())
      (fun _ s' => (s.Quiet → s'.Quiet) ∧
        Progress s s' (scriptReplies svc s) (scriptEvents svc command s))
      (fun _ _ => False) s₁ := by
  cases hresult : svc.parseResult with
  | PE_SUCCESS =>
      have hack := hend.toProgress.acknowledged command noFile
      have hevents : scriptEvents svc command s =
          .execComplete command s.currentQueryId noFile ::
            if sendDelta then [.command listVariablesDelta] else [] := by
        rw [scriptEvents, if_pos hresult, hdelta]
        cases sendDelta with
        | true => rfl
        | false => rfl
      have hreplies : scriptReplies svc s = [] := by
        simp [scriptReplies, hresult]
      rw [Act.wp_bind, wp_scheduleExecComplete, hevents, hreplies]
      cases sendDelta with
      | true =>
          refine ⟨fun h => ?_, hack.trans (Progress.scheduling _ _)⟩
          exact ((hend.quiet h).scheduling _).scheduling _
      | false =>
          refine ⟨fun h => ?_, hack⟩
          exact (hend.quiet h).scheduling _
  | PE_INCOMPLETE =>
      have hreplies : scriptReplies svc s =
          [formatStringAsJson s incompleteStatement true .session] :=
        if_pos hresult
      have hevents : scriptEvents svc command s = [] := by
        simp [scriptEvents, hresult]
      have hsame := formatStringAsJson_congr hsource hend.currentQueryId
        incompleteStatement true .session
      rw [hreplies, hevents]
      refine Act.wp_of_apply
        (sendTextToClient_apply_of_pos (by decide) _ _ _) ⟨fun h => ?_, ?_⟩
      · exact (hend.quiet h).sending _
      · exact hend.toProgress.trans (Progress.sending hsame rfl _)
  | PE_ERROR | PE_NULL | PE_EOF | PE_EXEC_ERROR =>
      refine ⟨hend.quiet, ?_⟩
      simpa [scriptReplies, scriptEvents, hresult] using hend.toProgress

theorem handleExecuteScript_spec (command : JsonCommand) (s : RSession σ ν) :
    Behaves (handleExecuteScript svc command) (scriptFailure svc command s)
      (· = some pngoff)
      (fun _ s' => Progress s s' (scriptReplies svc s)
        (scriptEvents svc command s)) s := by
  rw [handleExecuteScript]
  apply read_rule
  · intro e harg
    have hfailure : scriptFailure svc command s = some ⟨none, e⟩ := by
      simp [scriptFailure, harg]
    exact (Calm.refl s).fails hfailure
  intro argument harg
  rw [Act.wp_bind, Act.wp_get]
  apply read_rule
  · intro e hdelta
    have hfailure : scriptFailure svc command s = some ⟨none, e⟩ := by
      simp [scriptFailure, harg, hdelta]
    exact (Calm.refl s).fails hfailure
  intro sendDelta hdelta
  rw [scriptFailure_eq svc harg hdelta, scriptCalls]
  have hcapture := (Calm.refl s).calledIf svc sendDelta .captureEnvironment
  apply callIf_rule
  · intro e hthrows
    rw [Services.firstFailure_callsIf_of_some hthrows]
    exact ((Calm.refl s).called svc .captureEnvironment).fails rfl
  intro hcaptured
  rw [Services.firstFailure_callsIf_of_none hcaptured, Act.wp_bind,
    Act.wp_modify]
  have heval := (hcapture.moving svc.resetWatch).called svc
    (.parseEvalR argument)
  apply call_rule
  · intro e hthrows
    rw [Services.firstFailure_cons_of_some hthrows]
    exact heval.fails rfl
  intro hevaluated
  rw [Services.firstFailure_cons_of_none hevaluated]
  apply flush_rule
  · intro e hthrows
    rw [Services.firstFailure_cons_of_some hthrows]
    refine ⟨_, rfl, ?_, fun hraised => absurd rfl hraised⟩
    exact (heval.toProgress.trans (Progress.ignoring true _)).trans
      (Progress.called svc pngoff _)
  intro hflushed
  rw [Services.firstFailure_cons_of_none hflushed]
  exact (scriptEnd_spec svc hdelta (heval.flushed svc) (by simp)).mono
    (fun _ _ h => ⟨Services.firstFailure_nil, h⟩) fun _ _ h => h.elim

/-! ## R files -/

/-- The calls of the `.R` branch of `executeFile`. -/
def sourceCalls (fpath : String) : List Call :=
  [sourceFile fpath, pngoff]

/-- What the `.R` branch puts in the queue. -/
def sourceEvents (command : JsonCommand) (s : RSession σ ν) :
    List Deferred :=
  .execComplete command s.currentQueryId noFile ::
    if s.watchVariables then [.command listVariablesDelta] else []

/-- `sourceInProgress` is raised during both calls. -/
theorem executeSource_spec (fpath : String) (command : JsonCommand)
    (s : RSession σ ν) :
    Behaves (executeSource svc fpath command)
      (svc.firstFailure (sourceCalls fpath))
      (fun c => c = some (sourceFile fpath) ∨ c = some pngoff)
      (fun _ s' => Progress s s' [] (sourceEvents command s)) s := by
  rw [executeSource, sourceCalls, Behaves, Act.wp_bind, Act.wp_modify]
  have hsource := (Progress.sourcing true s).trans
    (Progress.called svc (sourceFile fpath) _)
  apply call_rule
  · intro e hthrows
    rw [Services.firstFailure_cons_of_some hthrows]
    exact ⟨_, rfl, hsource, fun hraised => absurd (Or.inl rfl) hraised⟩
  intro hsourced
  rw [Services.firstFailure_cons_of_none hsourced]
  apply flush_rule
  · intro e hthrows
    rw [Services.firstFailure_cons_of_some hthrows]
    refine ⟨_, rfl, ?_, fun hraised => absurd (Or.inr rfl) hraised⟩
    exact (hsource.trans (Progress.ignoring true _)).trans
      (Progress.called svc pngoff _)
  intro hflushed
  rw [Services.firstFailure_cons_of_none hflushed, Act.wp_bind,
    Act.wp_modify, Act.wp_bind, wp_scheduleExecComplete]
  have hend := (hsource.trans (Progress.flushed svc _)).trans
    (Progress.sourcing false _)
  have hack := hend.acknowledged command noFile
  have hquiet : s.Quiet → ((((s.sourcing true).called svc
      (sourceFile fpath)).flushed svc).sourcing false).Quiet := by
    intro h
    constructor
    · rw [RSession.sourcing_ignoreOutput, RSession.flushed_ignoreOutput]
    · rw [RSession.sourcing_captureStdOut, RSession.flushed_captureStdOut,
        RSession.called_captureStdOut, RSession.sourcing_captureStdOut]
      exact h.captureStdOut
    · rw [RSession.sourcing_sourceInProgress]
  rw [Act.wp_bind, Act.wp_get, sourceEvents]
  beta_reduce
  split
  next h =>
    have hwatch : s.watchVariables = true := by simpa using h
    rw [if_pos hwatch, scheduleDelayedCommand, wp_schedule]
    refine ⟨Services.firstFailure_nil, fun h => ?_, ?_⟩
    · exact ((hquiet h).scheduling _).scheduling _
    · exact hack.trans (Progress.scheduling _ _)
  next h =>
    have hwatch : ¬s.watchVariables = true := by simpa using h
    rw [if_neg hwatch]
    refine ⟨Services.firstFailure_nil, fun h => ?_, hack⟩
    exact (hquiet h).scheduling _

/-! ## R Markdown files -/

/-- Whether R has made the HTML file of a copy in `tmp`. -/
def isRendered (fileName tmp : String) (outer : σ) : Bool :=
  svc.holds (.pathExists (append tmp (htmlName fileName)))
    (svc.after [renderFile fileName tmp, pngoff] outer)

/-- The calls of `renderMarkdown`. -/
def renderCalls (fileName tmp htmlPath : String) (outer : σ) : List Call :=
  let tmpHtmlPath := append tmp (htmlName fileName)
  [renderFile fileName tmp, pngoff, .pathExists tmpHtmlPath] ++
    Services.callsIf (isRendered svc fileName tmp outer)
      (.copyFile tmpHtmlPath htmlPath)

/-- `captureStdOut` is raised while the file is rendered. -/
theorem renderMarkdown_spec (fileName tmp htmlPath : String)
    (s : RSession σ ν) :
    Behaves (renderMarkdown svc fileName tmp htmlPath)
      (svc.firstFailure (renderCalls svc fileName tmp htmlPath s.outer))
      (· = some (renderFile fileName tmp))
      (fun rendered s' => rendered = isRendered svc fileName tmp s.outer ∧
        Progress s s' [] [] ∧ s'.tmpDir = s.tmpDir ∧ s'.outer =
          svc.after (renderCalls svc fileName tmp htmlPath s.outer) s.outer)
      s := by
  rw [renderMarkdown, Behaves, wp_ignoringOutput, Act.wp_bind, Act.wp_modify]
  have hrender := ((Progress.ignoring true s).trans
    (Progress.capturing true _)).trans
    (Progress.called svc (renderFile fileName tmp) _)
  apply call_rule
  · intro e hthrows
    refine ⟨_, Services.firstFailure_cons_of_some hthrows, ?_,
      fun hraised => absurd rfl hraised⟩
    exact hrender.trans (Progress.ignoring false _)
  intro hrendered
  have hquiet : ∀ s' : RSession σ ν, s'.captureStdOut = false →
      s'.sourceInProgress = s.sourceInProgress → s.Quiet →
      (s'.ignoring false).Quiet :=
    fun s' hcapture hsource h => ⟨rfl, hcapture, hsource.trans h.sourceInProgress⟩
  have hcalls : svc.firstFailure
      (renderCalls svc fileName tmp htmlPath s.outer) =
        svc.firstFailure (pngoff :: .pathExists (append tmp
          (htmlName fileName)) :: Services.callsIf
            (isRendered svc fileName tmp s.outer) (.copyFile (append tmp
              (htmlName fileName)) htmlPath)) :=
    Services.firstFailure_cons_of_none hrendered
  rw [hcalls, Act.wp_bind, Act.wp_modify]
  have hcaptured := hrender.trans (Progress.capturing false _)
  apply flush_rule
  · intro e hthrows
    refine ⟨_, Services.firstFailure_cons_of_some hthrows, ?_, fun _ => ?_⟩
    · exact ((hcaptured.trans (Progress.ignoring true _)).trans
        (Progress.called svc pngoff _)).trans (Progress.ignoring false _)
    · exact hquiet _ (by simp) (by simp)
  intro hflushed
  rw [Services.firstFailure_cons_of_none hflushed]
  have hexists := (hcaptured.trans (Progress.flushed svc _)).trans
    (Progress.called svc
      (.pathExists (append tmp (htmlName fileName))) _)
  apply test_rule
  · intro e hthrows
    refine ⟨_, Services.firstFailure_cons_of_some hthrows, ?_, fun _ => ?_⟩
    · exact hexists.trans (Progress.ignoring false _)
    · exact hquiet _ (by simp) (by simp)
  intro htested
  rw [Services.firstFailure_cons_of_none htested]
  split
  next hholds =>
    have htrue : isRendered svc fileName tmp s.outer = true := by
      simpa [isRendered] using hholds
    rw [htrue]
    apply call_rule
    · intro e hthrows
      refine ⟨_, Services.firstFailure_cons_of_some hthrows, ?_, fun _ => ?_⟩
      · exact (hexists.trans (Progress.called svc _ _)).trans
          (Progress.ignoring false _)
      · exact hquiet _ (by simp) (by simp)
    intro hcopied
    refine ⟨Services.firstFailure_singleton_of_none hcopied,
      hquiet _ (by simp) (by simp), rfl, ?_, by simp, ?_⟩
    · exact (hexists.trans (Progress.called svc _ _)).trans
        (Progress.ignoring false _)
    · simp [renderCalls, htrue]
  next hholds =>
    have hfalse : isRendered svc fileName tmp s.outer = false := by
      simpa [isRendered] using hholds
    rw [hfalse]
    refine ⟨Services.firstFailure_nil, hquiet _ (by simp) (by simp), rfl, ?_,
      by simp, ?_⟩
    · exact hexists.trans (Progress.ignoring false _)
    · simp [renderCalls, hfalse]

/-- The calls of `reportMarkdown`. -/
def reportCalls (fileName tmpDir : String) (reported : Bool) : List Call :=
  [resetDirectory tmpDir, .pathExists (append tmpDir (htmlName fileName))] ++
    Services.callsIf reported (.findOrAddFile (htmlName fileName))

/-- What is sent and put in the queue when a file has been rendered. -/
def MarkdownEnd (reported : Bool) (command : JsonCommand)
    (s s' : RSession σ ν) : Prop :=
  if reported then
    ∃ finfo, Progress s s' [] [.execComplete command s.currentQueryId finfo]
  else
    ∃ details, Progress s s' [formatErrorAsJson
      kError_ExecFile_MarkdownFailed details s.currentQueryId] []

theorem MarkdownEnd.of_progress {reported : Bool} {command : JsonCommand}
    {s s₁ s' : RSession σ ν} (h : MarkdownEnd reported command s₁ s')
    (hstart : Progress s s₁ [] []) : MarkdownEnd reported command s s' := by
  rw [MarkdownEnd, hstart.currentQueryId] at h
  cases reported with
  | true =>
      obtain ⟨finfo, hend⟩ := h
      exact ⟨finfo, hstart.trans hend⟩
  | false =>
      obtain ⟨details, hend⟩ := h
      exact ⟨details, hstart.trans hend⟩

/-- Whether `reportMarkdown` reports an HTML file. -/
def reportsHtml (fileName tmpDir : String) (generatedHtml : Bool)
    (outer : σ) : Bool :=
  generatedHtml && svc.isGenerated (append tmpDir (htmlName fileName))
    (svc.effect (resetDirectory tmpDir) outer)

theorem reportMarkdown_spec (fileName : String) (generatedHtml : Bool)
    (command : JsonCommand) (s : RSession σ ν) :
    Behaves (reportMarkdown svc fileName generatedHtml command)
      (svc.firstFailure (reportCalls fileName s.tmpDir
        (reportsHtml svc fileName s.tmpDir generatedHtml s.outer)))
      (fun _ => False)
      (fun _ s' => MarkdownEnd
        (reportsHtml svc fileName s.tmpDir generatedHtml s.outer) command s s')
      s := by
  rw [reportMarkdown, Behaves, Act.wp_bind, Act.wp_get]
  have hreset := (Calm.refl s).called svc (resetDirectory s.tmpDir)
  apply call_rule
  · intro e hthrows
    exact hreset.fails (Services.firstFailure_cons_of_some hthrows)
  intro hdone
  have hfirst : ∀ reported, svc.firstFailure
      (reportCalls fileName s.tmpDir reported) = svc.firstFailure
        (.pathExists (append s.tmpDir (htmlName fileName)) ::
          Services.callsIf reported (.findOrAddFile (htmlName fileName))) :=
    fun _ => Services.firstFailure_cons_of_none hdone
  rw [hfirst]
  have hlook := hreset.called svc
    (.pathExists (append s.tmpDir (htmlName fileName)))
  apply generated_rule
  · intro e hthrows
    exact hlook.fails (Services.firstFailure_cons_of_some hthrows)
  intro hfound
  rw [Services.firstFailure_cons_of_none hfound]
  split
  next hreported =>
    have htrue : reportsHtml svc fileName s.tmpDir generatedHtml s.outer =
        true := hreported
    rw [htrue, wp_ignoringOutput]
    have hadded := (hlook.toProgress.trans (Progress.ignoring true _)).trans
      (Progress.called svc (.findOrAddFile (htmlName fileName)) _)
    have hguarded := hlook.guarded svc (.findOrAddFile (htmlName fileName))
    apply findOrAddFile_rule
    · intro e hthrows
      exact hguarded.fails (Services.firstFailure_cons_of_some hthrows)
    intro hadd
    rw [wp_scheduleExecComplete]
    have hend := fun info =>
      (hadded.acknowledged command info).trans (Progress.ignoring false _)
    refine ⟨Services.firstFailure_singleton_of_none hadd, fun h => ?_,
      _, hend _⟩
    exact (hguarded.quiet h).scheduling_ignoring _
  next hreported =>
    have hfalse : reportsHtml svc fileName s.tmpDir generatedHtml s.outer =
        false := Bool.not_eq_true _ ▸ hreported
    rw [hfalse, Act.wp_bind, Act.wp_get]
    refine ⟨Services.firstFailure_nil, fun h => ?_, ?_⟩
    · exact (hlook.quiet h).sending _
    · have hsame := fun details => congrArg (@formatErrorAsJson ν
        kError_ExecFile_MarkdownFailed details) hlook.currentQueryId
      exact ⟨_, hlook.toProgress.trans (Progress.sending (hsame _) rfl _)⟩

/-- The calls of `executeRMarkdown` before R runs. -/
def copyCalls (fileName tmpDir : String) : List Call :=
  [.temporaryDirectory (temporaryPath svc),
    .copyFile (append tmpDir fileName) (append (temporaryPath svc) fileName)]

/-- The calls of `executeRMarkdown` that run R. -/
def runCalls (fileName tmpDir : String) (outer : σ) : List Call :=
  renderCalls svc fileName (temporaryPath svc)
    (append tmpDir (htmlName fileName))
    (svc.after (copyCalls svc fileName tmpDir) outer)

/-- Whether `executeRMarkdown` reports an HTML file. -/
def markdownReports (fileName tmpDir : String) (outer : σ) : Bool :=
  reportsHtml svc fileName tmpDir
    (isRendered svc fileName (temporaryPath svc)
      (svc.after (copyCalls svc fileName tmpDir) outer))
    (svc.after (runCalls svc fileName tmpDir outer)
      (svc.after (copyCalls svc fileName tmpDir) outer))

/-- The calls of `executeRMarkdown`. -/
def markdownCalls (fileName tmpDir : String) (outer : σ) : List Call :=
  copyCalls svc fileName tmpDir ++ (runCalls svc fileName tmpDir outer ++
    reportCalls fileName tmpDir (markdownReports svc fileName tmpDir outer))

theorem executeRMarkdown_spec (fileName : String) (command : JsonCommand)
    (s : RSession σ ν) :
    Behaves (executeRMarkdown svc fileName command)
      (svc.firstFailure (markdownCalls svc fileName s.tmpDir s.outer))
      (· = some (renderFile fileName (temporaryPath svc)))
      (fun _ s' => MarkdownEnd
        (markdownReports svc fileName s.tmpDir s.outer) command s s') s := by
  rw [executeRMarkdown, Behaves, Act.wp_bind, Act.wp_get]
  have hdirectory := (Calm.refl s).called svc
    (.temporaryDirectory (temporaryPath svc))
  apply call_rule
  · intro e hthrows
    exact hdirectory.fails (Services.firstFailure_cons_of_some hthrows)
  intro hmade
  have hfirst : svc.firstFailure
      (markdownCalls svc fileName s.tmpDir s.outer) = svc.firstFailure
        (.copyFile (append s.tmpDir fileName)
          (append (temporaryPath svc) fileName) ::
            (runCalls svc fileName s.tmpDir s.outer ++
              reportCalls fileName s.tmpDir
                (markdownReports svc fileName s.tmpDir s.outer))) :=
    Services.firstFailure_cons_of_none hmade
  rw [hfirst]
  have hcopy := hdirectory.called svc (.copyFile (append s.tmpDir fileName)
    (append (temporaryPath svc) fileName))
  apply call_rule
  · intro e hthrows
    exact hcopy.fails (Services.firstFailure_cons_of_some hthrows)
  intro hcopied
  rw [Services.firstFailure_cons_of_none hcopied,
    Services.firstFailure_append]
  apply (renderMarkdown_spec svc _ _ _ _).rule
  · intro c e s₁ hfailure hprogress hquiet
    have hrun : svc.firstFailure (runCalls svc fileName s.tmpDir s.outer) =
        some ⟨c, e⟩ := hfailure
    refine ⟨c, by rw [hrun, Option.some_or], hcopy.toProgress.trans hprogress,
      fun hraised h => hquiet hraised (hcopy.quiet h)⟩
  · rintro rendered s₁ hnone hquiet ⟨hrendered, hprogress, hdir, houter⟩
    have hrun : svc.firstFailure (runCalls svc fileName s.tmpDir s.outer) =
        none := hnone
    have htmp : s₁.tmpDir = s.tmpDir := by simpa using hdir
    have hreports : reportsHtml svc fileName s₁.tmpDir rendered s₁.outer =
        markdownReports svc fileName s.tmpDir s.outer := by
      rw [htmp, houter, hrendered]
      rfl
    have hstart := hcopy.toProgress.trans hprogress
    rw [hrun, Option.none_or]
    refine (reportMarkdown_spec svc fileName rendered command s₁).mono ?_ ?_
    · rintro _ s' ⟨hreport, hcalm, hend⟩
      rw [hreports, htmp] at hreport
      rw [hreports] at hend
      refine ⟨hreport, fun h => hcalm (hquiet (hcopy.quiet h)), ?_⟩
      exact hend.of_progress hstart
    · rintro e s' ⟨c, hreport, hend, hcalm⟩
      rw [hreports, htmp] at hreport
      exact ⟨c, hreport, hstart.trans hend,
        fun _ h => hcalm not_false (hquiet (hcopy.quiet h))⟩

/-! ## Sweave files -/

/-- The calls of `collectPdf` after `texi2pdf`. -/
def resultCalls (srcPath scratchPath baseName tmpDir : String) (outer : σ) :
    List Call :=
  let genPdfPath := append scratchPath (baseName ++ ".pdf")
  let errorPath := append scratchPath (baseName ++ ".log")
  .pathExists genPdfPath ::
    if svc.isGenerated genPdfPath outer then
      [.copyFile genPdfPath (append tmpDir (baseName ++ ".pdf")),
        .findOrAddFile (baseName ++ ".pdf")]
    else
      .pathExists errorPath :: Services.callsIf
        (svc.holds (.pathExists errorPath)
          (svc.effect (.pathExists genPdfPath) outer))
        (.copyFile errorPath (append (parentPath srcPath) ".log"))

/-- The calls of `collectPdf`. -/
def pdfCalls (srcPath scratchPath baseName tmpDir : String) (outer : σ) :
    List Call :=
  let texPath := append scratchPath (baseName ++ ".tex")
  .texi2pdf texPath :: resultCalls svc srcPath scratchPath baseName tmpDir
    (svc.effect (.texi2pdf texPath) outer)

/-- `ignoreOutput` is raised while the session waits for `texi2pdf`. -/
def pdfRaised (c : Option Call) : Prop :=
  ∃ texPath, c = some (.texi2pdf texPath)

theorem collectPdf_spec (srcPath scratchPath baseName : String)
    (s : RSession σ ν) :
    Behaves (collectPdf svc srcPath scratchPath baseName)
      (svc.firstFailure
        (pdfCalls svc srcPath scratchPath baseName s.tmpDir s.outer))
      pdfRaised (fun _ s' => Calm s s') s := by
  let texPath := append scratchPath (baseName ++ ".tex")
  have hforked : Progress s ((s.ignoring true).forked svc texPath) [] [] :=
    ((Progress.ignoring true s).trans (Progress.copying _ _)).trans
      (Progress.called svc (.texi2pdf texPath) _)
  rw [collectPdf, Behaves, Act.wp_bind, Act.wp_get]
  beta_reduce
  rw [Act.wp_bind, Act.wp_modify, pdfCalls]
  apply forkTexi2pdf_rule
  · intro e hthrows
    exact ⟨_, Services.firstFailure_cons_of_some hthrows, hforked,
      fun hraised => absurd ⟨_, rfl⟩ hraised⟩
  intro hreturned
  rw [Services.firstFailure_cons_of_none hreturned, Act.wp_bind,
    Act.wp_modify, resultCalls]
  have htexi : Calm s (((s.ignoring true).forked svc texPath).ignoring false) :=
    ⟨hforked.trans (Progress.ignoring false _),
      fun h => ⟨rfl, h.captureStdOut, h.sourceInProgress⟩⟩
  have hlook := htexi.called svc
    (.pathExists (append scratchPath (baseName ++ ".pdf")))
  apply generated_rule
  · intro e hthrows
    exact hlook.fails (Services.firstFailure_cons_of_some hthrows)
  intro hlooked
  rw [Services.firstFailure_cons_of_none hlooked]
  split
  next hgenerated =>
    have htrue : svc.isGenerated (append scratchPath (baseName ++ ".pdf"))
        (svc.effect (.texi2pdf texPath) s.outer) =
          true := hgenerated
    rw [if_pos htrue]
    have hcopy := hlook.called svc
      (.copyFile (append scratchPath (baseName ++ ".pdf"))
        (append s.tmpDir (baseName ++ ".pdf")))
    apply call_rule
    · intro e hthrows
      exact hcopy.fails (Services.firstFailure_cons_of_some hthrows)
    intro hcopied
    rw [Services.firstFailure_cons_of_none hcopied, wp_findOrAddFile]
    have hadd := hcopy.called svc (.findOrAddFile (baseName ++ ".pdf"))
    split
    next hadded =>
      exact ⟨Services.firstFailure_singleton_of_none hadded, hadd.quiet, hadd⟩
    next e hthrows =>
      exact hadd.fails (Services.firstFailure_cons_of_some hthrows)
  next hgenerated =>
    have hfalse : ¬svc.isGenerated (append scratchPath (baseName ++ ".pdf"))
        (svc.effect (.texi2pdf texPath) s.outer) =
          true := hgenerated
    rw [if_neg hfalse]
    have herror := hlook.called svc
      (.pathExists (append scratchPath (baseName ++ ".log")))
    apply test_rule
    · intro e hthrows
      exact herror.fails (Services.firstFailure_cons_of_some hthrows)
    intro htested
    rw [Services.firstFailure_cons_of_none htested]
    split
    next hlog =>
      have hlogged : svc.holds
          (.pathExists (append scratchPath (baseName ++ ".log")))
          (svc.effect (.pathExists (append scratchPath (baseName ++ ".pdf")))
            (svc.effect (.texi2pdf texPath) s.outer)) = true := hlog
      rw [hlogged]
      have hcopy := herror.called svc
        (.copyFile (append scratchPath (baseName ++ ".log"))
          (append (parentPath srcPath) ".log"))
      apply call_rule
      · intro e hthrows
        exact hcopy.fails (Services.firstFailure_cons_of_some hthrows)
      intro hcopied
      exact ⟨Services.firstFailure_singleton_of_none hcopied, hcopy.quiet,
        hcopy⟩
    next hlog =>
      have hunlogged : svc.holds
          (.pathExists (append scratchPath (baseName ++ ".log")))
          (svc.effect (.pathExists (append scratchPath (baseName ++ ".pdf")))
            (svc.effect (.texi2pdf texPath) s.outer)) = false :=
          Bool.not_eq_true _ ▸ hlog
      rw [hunlogged]
      exact ⟨Services.firstFailure_nil, herror.quiet, herror⟩

/-- The calls of `collectTex`. -/
def texCalls (srcPath scratchPath baseName tmpDir : String) (outer : σ) :
    List Call :=
  let texPath := append scratchPath (baseName ++ ".tex")
  .pathExists texPath ::
    if svc.holds (.pathExists texPath) outer then
      pdfCalls svc srcPath scratchPath baseName tmpDir
        (svc.effect (.pathExists texPath) outer)
    else []

theorem collectTex_spec (srcPath scratchPath baseName : String)
    (s : RSession σ ν) :
    Behaves (collectTex svc srcPath scratchPath baseName)
      (svc.firstFailure
        (texCalls svc srcPath scratchPath baseName s.tmpDir s.outer))
      pdfRaised (fun _ s' => Calm s s') s := by
  rw [collectTex, Behaves, texCalls]
  have htex := (Calm.refl s).called svc
    (.pathExists (append scratchPath (baseName ++ ".tex")))
  apply test_rule
  · intro e hthrows
    exact htex.fails (Services.firstFailure_cons_of_some hthrows)
  intro htested
  rw [Services.firstFailure_cons_of_none htested]
  split
  next hexists =>
    apply (collectPdf_spec svc srcPath scratchPath baseName _).from_calm htex
    intro _ s' hend
    exact htex.trans hend
  next hexists =>
    exact ⟨Services.firstFailure_nil, htex.quiet, htex⟩

/-- The calls of `finishSweave`. -/
def finishCalls (srcPath scratchPath baseName tmpDir : String) (outer : σ) :
    List Call :=
  texCalls svc srcPath scratchPath baseName tmpDir outer ++
    [changeDirectory (parentPath scratchPath), pngoff]

/-- What is put in the queue after `Sweave`. -/
def SweaveEnd (command : JsonCommand) (s s' : RSession σ ν) : Prop :=
  ∃ finfo, Progress s s' [] [.execComplete command s.currentQueryId finfo]

theorem SweaveEnd.of_progress {command : JsonCommand}
    {s s₁ s' : RSession σ ν} (h : SweaveEnd command s₁ s')
    (hstart : Progress s s₁ [] []) : SweaveEnd command s s' := by
  rw [SweaveEnd, hstart.currentQueryId] at h
  obtain ⟨finfo, hend⟩ := h
  exact ⟨finfo, hstart.trans hend⟩

/-- `ignoreOutput` is raised while a PDF file is made or images are saved. -/
def sweaveRaised (c : Option Call) : Prop :=
  pdfRaised c ∨ c = some pngoff

theorem finishSweave_spec (srcPath scratchPath baseName : String)
    (command : JsonCommand) (s : RSession σ ν) :
    Behaves (finishSweave svc srcPath scratchPath baseName command)
      (svc.firstFailure
        (finishCalls svc srcPath scratchPath baseName s.tmpDir s.outer))
      sweaveRaised (fun _ s' => SweaveEnd command s s') s := by
  rw [finishSweave, finishCalls, Services.firstFailure_append]
  apply (collectTex_spec svc srcPath scratchPath baseName s).rule
  · intro c e s' hfailure hprogress hquiet
    exact ⟨c, by rw [hfailure, Option.some_or], hprogress,
      fun hraised => hquiet fun h => hraised (Or.inl h)⟩
  intro finfo s₁ hnone hquiet hcollected
  rw [hnone, Option.none_or]
  have hleave := hcollected.called svc
    (changeDirectory (parentPath scratchPath))
  apply call_rule
  · intro e hthrows
    exact hleave.fails (Services.firstFailure_cons_of_some hthrows)
  intro hleft
  rw [Services.firstFailure_cons_of_none hleft, Act.wp_bind, Act.wp_modify]
  have hunmuted := hleave.unmuted
  apply flush_rule
  · intro e hthrows
    refine ⟨_, Services.firstFailure_cons_of_some hthrows, ?_,
      fun hraised => absurd (Or.inr rfl) hraised⟩
    exact (hunmuted.toProgress.trans (Progress.ignoring true _)).trans
      (Progress.called svc pngoff _)
  intro hflushed
  have hend := hunmuted.flushed svc
  rw [wp_scheduleExecComplete]
  exact ⟨Services.firstFailure_singleton_of_none hflushed,
    fun h => (hend.quiet h).scheduling _, finfo,
    hend.toProgress.acknowledged command finfo⟩

/-- The calls of `executeSweave` before `Sweave`. -/
def scratchCalls (scratchPath : String) : List Call :=
  [.createDirectories scratchPath, changeDirectory scratchPath]

/-- The exception `executeSweave` throws, if any. -/
def sweaveFailure (filePath tmpDir : String) (outer : σ) : Option Failure :=
  let srcPath := append tmpDir filePath
  let scratchPath := append tmpDir ".rc2sw"
  (svc.firstFailure (scratchCalls scratchPath)).or <|
    match svc.throws (sweaveFile filePath) with
    | some e =>
        if e.type.isRuntimeError then none
        else some ⟨some (sweaveFile filePath), e⟩
    | none => svc.firstFailure (finishCalls svc srcPath scratchPath
        (stem srcPath) tmpDir
        (svc.after (scratchCalls scratchPath ++ [sweaveFile filePath]) outer))

theorem executeSweave_spec (filePath : String) (command : JsonCommand)
    (s : RSession σ ν) :
    Behaves (executeSweave svc filePath command)
      (sweaveFailure svc filePath s.tmpDir s.outer) sweaveRaised
      (fun _ s' => SweaveEnd command s s') s := by
  rw [executeSweave, Behaves, sweaveFailure, Act.wp_bind, Act.wp_get]
  have hcreate := (Calm.refl s).called svc
    (.createDirectories (append s.tmpDir ".rc2sw"))
  apply call_rule
  · intro e hthrows
    have hfirst : svc.firstFailure (scratchCalls (append s.tmpDir ".rc2sw")) =
        some ⟨_, e⟩ := Services.firstFailure_cons_of_some hthrows
    exact hcreate.fails (by rw [hfirst, Option.some_or])
  intro hcreated
  have henter := hcreate.called svc
    (changeDirectory (append s.tmpDir ".rc2sw"))
  have hscratch : svc.firstFailure (scratchCalls (append s.tmpDir ".rc2sw")) =
      svc.firstFailure [changeDirectory (append s.tmpDir ".rc2sw")] :=
    Services.firstFailure_cons_of_none hcreated
  rw [hscratch]
  apply call_rule
  · intro e hthrows
    have hfirst : svc.firstFailure
        [changeDirectory (append s.tmpDir ".rc2sw")] = some ⟨_, e⟩ :=
      Services.firstFailure_cons_of_some hthrows
    exact henter.fails (by rw [hfirst, Option.some_or])
  intro hentered
  rw [Services.firstFailure_singleton_of_none hentered, Option.none_or,
    Act.wp_bind, wp_catchRuntimeError]
  have hsweave := henter.called svc (sweaveFile filePath)
  apply call_rule
  · intro e hthrows
    rw [hthrows]
    split
    next hruntime =>
      -- an R error is acknowledged like a success
      have hsent := hsweave.bufferFlushed true
      rw [Act.wp_bind, wp_sendOutputBufferToClient, Act.wp_bind,
        wp_scheduleExecComplete]
      exact ⟨if_pos hruntime, fun h => (hsent.quiet h).scheduling _, noFile,
        hsent.toProgress.acknowledged command noFile⟩
    next hother =>
      exact hsweave.fails (if_neg hother)
  intro hswept
  rw [hswept, Act.wp_pure]
  have hfinish := finishSweave_spec svc (append s.tmpDir filePath)
    (append s.tmpDir ".rc2sw") (stem (append s.tmpDir filePath)) command
    (((s.called svc (.createDirectories (append s.tmpDir ".rc2sw"))).called svc
      (changeDirectory (append s.tmpDir ".rc2sw"))).called svc
        (sweaveFile filePath))
  simp only [RSession.called_tmpDir, RSession.called_outer] at hfinish
  apply hfinish.from_calm hsweave
  intro _ s' hend
  exact hend.of_progress hsweave.toProgress

/-! ## Files -/

/-- The files `executeFile` tells apart. -/
inductive FileKind where
  | markdown
  | sweave
  | source
  | unsupported
deriving DecidableEq, Repr

def fileKind (fpath : String) : FileKind :=
  if extension fpath = ".Rmd" then .markdown
  else if extension fpath = ".Rnw" then .sweave
  else if extension fpath = ".R" then .source
  else .unsupported

/-- The exception `executeByExtension` throws, if any. -/
def extensionFailure (fpath tmpDir : String) (outer : σ) : Option Failure :=
  match fileKind fpath with
  | .markdown => svc.firstFailure (markdownCalls svc fpath tmpDir outer)
  | .sweave => sweaveFailure svc fpath tmpDir outer
  | .source => svc.firstFailure (sourceCalls fpath)
  | .unsupported => none

/-- The calls of `executeFile` made with a flag raised. -/
def fileRaised (fpath : String) (c : Option Call) : Prop :=
  match fileKind fpath with
  | .markdown => c = some (renderFile fpath (temporaryPath svc))
  | .sweave => sweaveRaised c
  | .source => c = some (sourceFile fpath) ∨ c = some pngoff
  | .unsupported => False

/-- What `executeFile` sends, and what it puts in the queue. -/
def FileEnd (fpath : String) (outer : σ) (command : JsonCommand)
    (s s' : RSession σ ν) : Prop :=
  match fileKind fpath with
  | .markdown =>
      MarkdownEnd (markdownReports svc fpath s.tmpDir outer) command s s'
  | .sweave => SweaveEnd command s s'
  | .source => Progress s s' [] (sourceEvents command s)
  | .unsupported => Progress s s' [formatErrorAsJson
      kError_Execfile_InvalidInput ("unsupported file type:" ++ fpath)
      s.currentQueryId] []

theorem executeByExtension_spec (fpath : String) (command : JsonCommand)
    (s : RSession σ ν) :
    Behaves (executeByExtension svc fpath command)
      (extensionFailure svc fpath s.tmpDir s.outer) (fileRaised svc fpath)
      (fun _ s' => FileEnd svc fpath s.outer command s s') s := by
  rw [executeByExtension, Behaves, Act.wp_bind, Act.wp_get]
  unfold extensionFailure fileRaised FileEnd
  beta_reduce
  split
  next hmarkdown =>
    have hkind : fileKind fpath = .markdown := if_pos hmarkdown
    rw [hkind]
    exact executeRMarkdown_spec svc fpath command s
  next hmarkdown =>
  split
  next hsweave =>
    have hkind : fileKind fpath = .sweave := by
      rw [fileKind, if_neg hmarkdown, if_pos hsweave]
    rw [hkind]
    exact executeSweave_spec svc fpath command s
  next hsweave =>
  split
  next hsource =>
    have hkind : fileKind fpath = .source := by
      rw [fileKind, if_neg hmarkdown, if_neg hsweave, if_pos hsource]
    rw [hkind]
    exact executeSource_spec svc fpath command s
  next hsource =>
    have hkind : fileKind fpath = .unsupported := by
      rw [fileKind, if_neg hmarkdown, if_neg hsweave, if_neg hsource]
    rw [hkind, wp_sendJsonToClientSource]
    exact ⟨rfl, fun h => h.sending _, Progress.sending rfl rfl s⟩

/-- What lies behind the services when a file is about to be run. -/
def fileOuter (s : RSession σ ν) : σ :=
  svc.after (Services.callsIf s.watchVariables .captureEnvironment)
    (svc.resetWatch s.outer)

/-- The exception `executeKnownFile` throws, if any. -/
def knownFileFailure (fpath : String) (s : RSession σ ν) : Option Failure :=
  (svc.firstFailure
    (Services.callsIf s.watchVariables .captureEnvironment)).or
      (extensionFailure svc fpath s.tmpDir (fileOuter svc s))

theorem FileEnd.of_progress {fpath : String} {outer : σ}
    {command : JsonCommand} {s s₁ s' : RSession σ ν}
    (h : FileEnd svc fpath outer command s₁ s')
    (hstart : Progress s s₁ [] []) (hdir : s₁.tmpDir = s.tmpDir)
    (hwatch : s₁.watchVariables = s.watchVariables) :
    FileEnd svc fpath outer command s s' := by
  unfold FileEnd at h ⊢
  cases hkind : fileKind fpath with
  | markdown =>
      rw [hkind, hdir] at h
      exact h.of_progress hstart
  | sweave =>
      rw [hkind] at h
      exact h.of_progress hstart
  | source =>
      rw [hkind] at h
      have hevents : sourceEvents command s₁ = sourceEvents command s := by
        rw [sourceEvents, sourceEvents, hwatch, hstart.currentQueryId]
      rw [← hevents]
      exact hstart.trans h
  | unsupported =>
      rw [hkind, hstart.currentQueryId] at h
      exact hstart.trans h

theorem executeKnownFile_spec (fpath : String) (command : JsonCommand)
    (s : RSession σ ν) :
    Behaves (executeKnownFile svc fpath command)
      (knownFileFailure svc fpath s) (fileRaised svc fpath)
      (fun _ s' => FileEnd svc fpath (fileOuter svc s) command s s') s := by
  rw [executeKnownFile, Behaves, knownFileFailure, Act.wp_bind,
    Act.wp_modify, Act.wp_bind, Act.wp_get]
  have hmoved := (Calm.refl s).moving svc.resetWatch
  have hstart := hmoved.calledIf svc s.watchVariables .captureEnvironment
  apply callIf_rule
  · intro e hthrows
    have hfirst : svc.firstFailure
        (Services.callsIf s.watchVariables .captureEnvironment) =
          some ⟨some .captureEnvironment, e⟩ :=
      Services.firstFailure_callsIf_singleton_of_some hthrows
    rw [hfirst, Option.some_or]
    exact (hmoved.called svc .captureEnvironment).fails rfl
  intro hcaptured
  have hfirst : svc.firstFailure
      (Services.callsIf s.watchVariables .captureEnvironment) = none :=
    Services.firstFailure_callsIf_singleton_of_none hcaptured
  rw [hfirst, Option.none_or]
  have hspec := executeByExtension_spec svc fpath command
    ((s.moving svc.resetWatch).calledIf svc s.watchVariables
      .captureEnvironment)
  have houter : ((s.moving svc.resetWatch).calledIf svc s.watchVariables
      .captureEnvironment).outer = fileOuter svc s := by
    simp [fileOuter]
  rw [houter, RSession.calledIf_tmpDir] at hspec
  apply hspec.from_calm hstart
  intro _ s' hend
  exact hend.of_progress svc hstart.toProgress (by simp) (by simp)

/-- The file an `execFile` command names, if the manager knows it. -/
def commandFile (command : JsonCommand) (s : RSession σ ν) : Option String :=
  match command.argument with
  | .ok argument => svc.filePathForId s.outer (atol argument.toList)
  | .error _ => none

/-- The exception `executeFile` throws, if any. -/
def fileFailure (command : JsonCommand) (s : RSession σ ν) :
    Option Failure :=
  (fieldFailure command.argument).or <|
    match commandFile svc command s with
    | some fpath => knownFileFailure svc fpath s
    | none => none

/-- What an `execFile` command sends, and what it puts in the queue. -/
def FileCommandEnd (command : JsonCommand) (s s' : RSession σ ν) : Prop :=
  match commandFile svc command s with
  | some fpath => FileEnd svc fpath (fileOuter svc s) command s s'
  | none => ∃ details, Progress s s' [formatErrorAsJson
      kErrfor_UnknownFile details s.currentQueryId] []

theorem executeFile_spec (command : JsonCommand) (s : RSession σ ν) :
    Behaves (executeFile svc command) (fileFailure svc command s)
      (fun c => ∃ fpath ∈ commandFile svc command s, fileRaised svc fpath c)
      (fun _ s' => FileCommandEnd svc command s s') s := by
  rw [executeFile, Behaves, fileFailure]
  unfold FileCommandEnd
  apply read_rule
  · intro e harg
    exact (Calm.refl s).fails (by rw [harg, fieldFailure, Option.some_or])
  intro argument harg
  have hfile : commandFile svc command s =
      svc.filePathForId s.outer (atol argument.toList) := by
    rw [commandFile, harg]
  rw [harg, fieldFailure, Option.none_or, Act.wp_bind, Act.wp_get, hfile]
  beta_reduce
  cases hpath : svc.filePathForId s.outer (atol argument.toList) with
  | none =>
      dsimp only
      rw [wp_sendJsonToClientSource]
      exact ⟨rfl, fun h => h.sending _, _, Progress.sending rfl rfl s⟩
  | some fpath =>
      refine (executeKnownFile_spec svc fpath command s).mono ?_ ?_
      · exact fun _ _ h => h
      · rintro e s' ⟨c, hsome, hprogress, hquiet⟩
        refine ⟨c, hsome, hprogress, fun hraised => hquiet fun h => ?_⟩
        exact hraised ⟨fpath, rfl, h⟩

/-! ## Acknowledgements -/

/-- The exception an acknowledgement throws, if any. -/
def ackFailure (command : JsonCommand) : Option Failure :=
  (svc.firstFailure [.cleanupImageWatch]).or
    (fieldFailure command.startTimeStr)

/-- What an acknowledgement sends. -/
def AckReplies (command : JsonCommand) (queryId : ℤ) (finfo : FileInfo)
    (replies : List (Message ν)) : Prop :=
  ∃ startTime images imgBatch file, replies =
    .execComplete startTime (queryIdField queryId)
      (clientDataField command.clientData) (decide (finfo.id > 0)) images
      imgBatch ::
        if finfo.id > 0 then [.showoutput file] else []

theorem handleExecComplete_spec (command : JsonCommand) (queryId : ℤ)
    (finfo : FileInfo) (s : RSession σ ν) :
    Behaves (handleExecComplete svc command queryId finfo)
      (ackFailure svc command) (fun _ => False)
      (fun _ s' => ∃ replies, AckReplies command queryId finfo replies ∧
        Progress s s' replies []) s := by
  rw [handleExecComplete, Behaves, ackFailure, Act.wp_bind,
    acknowledgeExecComplete]
  have hcleanup := (Calm.refl s).called svc .cleanupImageWatch
  apply call_rule
  · intro e hthrows
    have hfirst : svc.firstFailure [.cleanupImageWatch] = some ⟨_, e⟩ :=
      Services.firstFailure_cons_of_some hthrows
    exact hcleanup.fails (by rw [hfirst, Option.some_or])
  intro hcleaned
  rw [Services.firstFailure_singleton_of_none hcleaned, Option.none_or]
  apply read_rule
  · intro e htime
    exact hcleanup.fails (by rw [htime, fieldFailure])
  intro startTime htime
  rw [htime, Act.wp_bind, Act.wp_get]
  dsimp only
  rw [Act.wp_pure, Act.wp_bind, wp_sendJsonToClientSource, Act.wp_bind,
    Act.wp_get]
  beta_reduce
  have hack : ∀ images imgBatch, Progress s ((s.called svc
      .cleanupImageWatch).sending (.execComplete startTime
        (queryIdField queryId) (clientDataField command.clientData)
          (decide (finfo.id > 0)) images imgBatch))
      [.execComplete startTime (queryIdField queryId)
        (clientDataField command.clientData) (decide (finfo.id > 0)) images
        imgBatch] [] :=
    fun _ _ => hcleanup.toProgress.trans (Progress.sending rfl rfl _)
  split
  next hfile =>
    rw [wp_sendJsonToClientSource]
    refine ⟨rfl, fun h => ((hcleanup.quiet h).sending _).sending _, _, ?_,
      (hack _ _).trans (Progress.sending rfl rfl _)⟩
    exact ⟨startTime, _, _, _, by rw [if_pos hfile]; rfl⟩
  next hfile =>
    refine ⟨rfl, fun h => (hcleanup.quiet h).sending _, _, ?_, hack _ _⟩
    exact ⟨startTime, _, _, finfo, by rw [if_neg hfile]⟩

end Rc2Compute.Session
