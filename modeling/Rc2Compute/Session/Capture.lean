import Rc2Compute.Session.Idle
import Rc2Compute.Session.Routine

/-!
# Captured output

What the client is told when R makes no HTML of an R Markdown file.  The
session adds the output of every file it renders to `stdOutCapture` and never
clears it: the line that should clear it sets the flag once more.
-/

namespace Rc2Compute.Session

variable {σ ν : Type}

/-! ## Failures that are told -/

/-- Every failure told between `s` and `s'` has the details `details`. -/
def Tells (details : String) (s s' : RSession σ ν) : Prop :=
  ∃ messages, s'.sent = s.sent ++ messages ∧
    ∀ told queryId,
      .error kError_ExecFile_MarkdownFailed told queryId ∈ messages →
        told = details

section Tells

variable {details : String} {s s' s'' : RSession σ ν}

theorem Tells.of_sent (h : s'.sent = s.sent) : Tells details s s' :=
  ⟨[], by rw [h, List.append_nil], nofun⟩

theorem Tells.trans (h : Tells details s s') (h' : Tells details s' s'') :
    Tells details s s'' := by
  obtain ⟨messages, hsent, htold⟩ := h
  obtain ⟨messages', hsent', htold'⟩ := h'
  refine ⟨messages ++ messages', ?_, ?_⟩
  · rw [hsent', hsent, List.append_assoc]
  · intro told queryId hmem
    rcases List.mem_append.mp hmem with hmem | hmem
    · exact htold told queryId hmem
    · exact htold' told queryId hmem

/-- What R wrote is no failure. -/
theorem Tells.of_console {messages : List (Message ν)}
    (hsent : s'.sent = s.sent ++ messages)
    (hconsole : ∀ m ∈ messages, m.fromConsole = true) :
    Tells details s s' := by
  refine ⟨messages, hsent, ?_⟩
  intro told queryId hmem
  cases hconsole _ hmem

theorem Tells.sending (h : Tells details s s') (queryId : ℤ) :
    Tells details s (s'.sending
      (formatErrorAsJson kError_ExecFile_MarkdownFailed details queryId)) := by
  apply h.trans
  refine ⟨_, rfl, ?_⟩
  intro told id hmem
  obtain ⟨-, htold, -⟩ := Message.error.inj (List.mem_singleton.mp hmem)
  exact htold

end Tells

/-! ## Steps that capture nothing -/

/-- Between `s` and `s'` nothing is captured, if nothing was to be. -/
structure Settles (details : String) (s s' : RSession σ ν) : Prop where
  tells : Tells details s s'
  captureStdOut : s.captureStdOut = false → s'.captureStdOut = false
  stdOutCapture : s.captureStdOut = false →
    s'.stdOutCapture = s.stdOutCapture

namespace Settles

variable {details : String} {s s' s'' : RSession σ ν}

theorem refl (s : RSession σ ν) : Settles details s s :=
  ⟨.of_sent rfl, id, fun _ => rfl⟩

theorem trans (h : Settles details s s') (h' : Settles details s' s'') :
    Settles details s s'' where
  tells := h.tells.trans h'.tells
  captureStdOut hs := h'.captureStdOut (h.captureStdOut hs)
  stdOutCapture hs :=
    (h'.stdOutCapture (h.captureStdOut hs)).trans (h.stdOutCapture hs)

theorem ignoring (h : Settles details s s') (b : Bool) :
    Settles details s (s'.ignoring b) :=
  h.trans ⟨.of_sent rfl, id, fun _ => rfl⟩

theorem scheduling (h : Settles details s s') (event : Deferred) :
    Settles details s (s'.scheduling event) :=
  h.trans ⟨.of_sent rfl, id, fun _ => rfl⟩

theorem called (h : Settles details s s') (svc : Services σ ν) (c : Call) :
    Settles details s (s'.called svc c) := by
  apply h.trans
  constructor
  · exact .of_console rfl fun m hm => (Progress.errorsSent s' _ m hm).1
  · exact id
  · intro hcapture
    have hnothing : s'.captured (svc.output c) = "" := by
      rw [RSession.captured, hcapture]
      rfl
    change s'.stdOutCapture ++ s'.captured (svc.output c) = s'.stdOutCapture
    rw [hnothing, String.append_empty]

theorem bufferFlushed (h : Settles details s s') (isError : Bool) :
    Settles details s (s'.bufferFlushed isError) :=
  h.trans ⟨.of_console rfl fun m hm => (Progress.bufferSent s' _ m hm).1, id,
    fun _ => rfl⟩

theorem flushed (h : Settles details s s') (svc : Services σ ν) :
    Settles details s (s'.flushed svc) :=
  (((h.ignoring true).called svc pngoff).ignoring false).bufferFlushed false

end Settles

/-! ## Rendering -/

variable (svc : Services σ ν)

/-- What R writes while it renders a file. -/
def renderText (fileName : String) : String :=
  String.join ((svc.output (renderFile fileName (temporaryPath svc))).map
    ConsoleWrite.text)

/-- The details of a failure in a session that has captured `captured`. -/
def failureDetails (captured : String) : String :=
  "failed to generate html:" ++ captured

theorem reportMarkdown_settles (fileName : String) (generatedHtml : Bool)
    (command : JsonCommand) {s : RSession σ ν}
    (hcapture : s.captureStdOut = false) :
    Act.wp (reportMarkdown svc fileName generatedHtml command)
      (fun _ => Settles (failureDetails s.stdOutCapture) s)
      (fun _ => Settles (failureDetails s.stdOutCapture) s) s := by
  have hstart : Settles (failureDetails s.stdOutCapture) s s := .refl s
  rw [reportMarkdown, Act.wp_bind, Act.wp_get]
  have hreset := hstart.called svc (resetDirectory s.tmpDir)
  apply call_rule
  · intro e _
    exact hreset
  intro _
  have hlook := hreset.called svc
    (.pathExists (append s.tmpDir (htmlName fileName)))
  apply generated_rule
  · intro e _
    exact hlook
  intro _
  split
  · rw [wp_ignoringOutput]
    have hadded := (hlook.ignoring true).called svc
      (.findOrAddFile (htmlName fileName))
    apply findOrAddFile_rule
    · intro e _
      exact hadded.ignoring false
    intro _
    exact (hadded.scheduling _).ignoring false
  · rw [Act.wp_bind, Act.wp_get]
    constructor
    · have hdetails := hlook.stdOutCapture hcapture
      have htold := hlook.tells.sending (RSession.currentQueryId
        ((s.called svc (resetDirectory s.tmpDir)).called svc
          (.pathExists (append s.tmpDir (htmlName fileName)))))
      rw [← hdetails] at htold ⊢
      exact htold
    · exact hlook.captureStdOut
    · exact hlook.stdOutCapture

/-- Between `s` and `s'` a file is rendered, and R writes `text` meanwhile. -/
structure Captures (details text : String) (s s' : RSession σ ν) : Prop where
  tells : Tells details s s'
  stdOutCapture : s'.stdOutCapture = s.stdOutCapture ++ text

theorem Captures.settle {details text : String} {s s' s'' : RSession σ ν}
    (h : Captures details text s s') (hcapture : s'.captureStdOut = false)
    (hsettles : Settles details s' s'') : Captures details text s s'' where
  tells := h.tells.trans hsettles.tells
  stdOutCapture := (hsettles.stdOutCapture hcapture).trans h.stdOutCapture

/-- Whether the file is rendered or the call throws, all that R writes is
captured, and nothing else. -/
theorem renderMarkdown_captures (fileName htmlPath details : String)
    (s : RSession σ ν) :
    Act.wp (renderMarkdown svc fileName (temporaryPath svc) htmlPath)
      (fun _ s' => Captures details (renderText svc fileName) s s' ∧
        s'.captureStdOut = false)
      (fun _ => Captures details (renderText svc fileName) s) s := by
  rw [renderMarkdown, wp_ignoringOutput, Act.wp_bind, Act.wp_modify]
  have hrendered : Captures details (renderText svc fileName) s
      (((s.ignoring true).capturing true).called svc
        (renderFile fileName (temporaryPath svc))) := by
    constructor
    · exact .of_console rfl fun m hm => (Progress.errorsSent _ _ m hm).1
    · rfl
  apply call_rule
  · intro e _
    exact ⟨hrendered.tells, hrendered.stdOutCapture⟩
  intro _
  rw [Act.wp_bind, Act.wp_modify]
  -- From here on nothing is captured, and each way out lowers the flags.
  generalize ((s.ignoring true).capturing true).called svc
    (renderFile fileName (temporaryPath svc)) = s₁ at hrendered ⊢
  have hend : ∀ s', Settles details (s₁.capturing false) s' →
      Captures details (renderText svc fileName) s (s'.ignoring false) ∧
        (s'.ignoring false).captureStdOut = false := by
    intro s' h
    have hlowered : Captures details (renderText svc fileName) s
        (s₁.capturing false) := ⟨hrendered.tells, hrendered.stdOutCapture⟩
    exact ⟨hlowered.settle rfl (h.ignoring false), h.captureStdOut rfl⟩
  have hstart : Settles details (s₁.capturing false) (s₁.capturing false) :=
    .refl _
  apply flush_rule
  · intro e _
    exact (hend _ ((hstart.ignoring true).called svc pngoff)).1
  intro _
  have hexists := (hstart.flushed svc).called svc
    (.pathExists (append (temporaryPath svc) (htmlName fileName)))
  apply test_rule
  · intro e _
    exact (hend _ hexists).1
  intro _
  split
  · apply call_rule
    · intro e _
      exact (hend _ (hexists.called svc _)).1
    intro _
    exact hend _ (hexists.called svc _)
  · exact hend _ hexists

/-- What `executeRMarkdown` captures: nothing if the file is not copied. -/
def runText (fileName tmpDir : String) : String :=
  if svc.firstFailure (copyCalls svc fileName tmpDir) = none then
    renderText svc fileName
  else ""

/-- A call that does not run R captures nothing. -/
theorem Captures.called {details : String} {c : Call} (h : c.runsR = false)
    (s : RSession σ ν) : Captures details "" s (s.called svc c) := by
  constructor
  · exact .of_console rfl fun m hm => (Progress.errorsSent s _ m hm).1
  · have hnothing : s.captured (svc.output c) = "" := by
      rw [svc.output_eq_nil c h, RSession.captured]
      split
      · rfl
      · rfl
    exact congrArg (s.stdOutCapture ++ ·) hnothing

theorem Captures.after {details text : String} {s s' s'' : RSession σ ν}
    (h : Captures details "" s s') (h' : Captures details text s' s'') :
    Captures details text s s'' where
  tells := h.tells.trans h'.tells
  stdOutCapture := by
    rw [h'.stdOutCapture, h.stdOutCapture, String.append_empty]

/-- A run tells the failure with all that has been captured until then. -/
theorem executeRMarkdown_captures (fileName : String) (command : JsonCommand)
    (s : RSession σ ν) :
    Act.wp (executeRMarkdown svc fileName command)
      (fun _ => Captures
        (failureDetails (s.stdOutCapture ++ renderText svc fileName))
        (runText svc fileName s.tmpDir) s)
      (fun _ => Captures
        (failureDetails (s.stdOutCapture ++ renderText svc fileName))
        (runText svc fileName s.tmpDir) s) s := by
  rw [executeRMarkdown, Act.wp_bind, Act.wp_get]
  have hmade : Captures
      (failureDetails (s.stdOutCapture ++ renderText svc fileName)) "" s
      (s.called svc (.temporaryDirectory (temporaryPath svc))) :=
    .called svc rfl s
  apply call_rule
  · intro e hthrows
    have hfailed : runText svc fileName s.tmpDir = "" := by
      rw [runText, copyCalls, Services.firstFailure_cons_of_some hthrows]
      rfl
    rwa [hfailed]
  intro hmakes
  have hcopied := hmade.after (.called svc rfl _ : Captures _ "" _
    ((s.called svc (.temporaryDirectory (temporaryPath svc))).called svc
      (.copyFile (append s.tmpDir fileName)
        (append (temporaryPath svc) fileName))))
  apply call_rule
  · intro e hthrows
    have hfailed : runText svc fileName s.tmpDir = "" := by
      rw [runText, copyCalls, Services.firstFailure_cons_of_none hmakes,
        Services.firstFailure_cons_of_some hthrows]
      rfl
    rwa [hfailed]
  intro hcopies
  have hruns : runText svc fileName s.tmpDir = renderText svc fileName := by
    rw [runText, copyCalls, Services.firstFailure_cons_of_none hmakes,
      Services.firstFailure_singleton_of_none hcopies]
    rfl
  rw [hruns, Act.wp_bind]
  refine (renderMarkdown_captures svc _ _
    (failureDetails (s.stdOutCapture ++ renderText svc fileName)) _).mono ?_ ?_
  · rintro rendered s' ⟨hrendered, hlowered⟩
    have hall := hcopied.after hrendered
    have hreport := reportMarkdown_settles svc fileName rendered command
      hlowered
    rw [hall.stdOutCapture] at hreport
    exact hreport.mono (fun _ _ hend => hall.settle hlowered hend)
      fun _ _ hend => hall.settle hlowered hend
  · intro e s' hrendered
    exact hcopied.after hrendered

/-! ## Runs -/

/-- A command to render an R Markdown file, and the services meanwhile. -/
structure MarkdownRun (σ ν : Type) where
  svc : Services σ ν
  fileName : String
  command : JsonCommand

namespace MarkdownRun

/-- The session after a run. -/
def step (s : RSession σ ν) (x : MarkdownRun σ ν) : RSession σ ν :=
  (executeRMarkdown x.svc x.fileName x.command s).2

/-- The text a run adds to `stdOutCapture`. -/
def text (x : MarkdownRun σ ν) (s : RSession σ ν) : String :=
  runText x.svc x.fileName s.tmpDir

/-- The run ends with the report that there is no HTML. -/
def Fails (x : MarkdownRun σ ν) (s : RSession σ ν) : Prop :=
  x.svc.firstFailure (markdownCalls x.svc x.fileName s.tmpDir s.outer) = none ∧
    markdownReports x.svc x.fileName s.tmpDir s.outer = false

/-- The details of a failure are what R wrote while the run rendered its
file. -/
def TellsOwnText (x : MarkdownRun σ ν) (s : RSession σ ν) : Prop :=
  Tells (failureDetails (renderText x.svc x.fileName)) s (step s x)

theorem step_captures (x : MarkdownRun σ ν) (s : RSession σ ν) :
    Captures (failureDetails (s.stdOutCapture ++ renderText x.svc x.fileName))
      (x.text s) s (step s x) :=
  (executeRMarkdown_captures x.svc x.fileName x.command s).final

/-- A failure is told by a reply. -/
theorem error_mem_of_progress {s s' : RSession σ ν}
    {replies messages : List (Message ν)} {events : List Deferred}
    (h : Progress s s' replies events) (hsent : s'.sent = s.sent ++ messages)
    (errorCode : ℤ) (details : String) (queryId : Option ℤ) :
    .error errorCode details queryId ∈ messages ↔
      .error errorCode details queryId ∈ replies := by
  obtain ⟨messages', hsent', hreplies, -⟩ := h.sent
  obtain rfl : messages = messages' :=
    List.append_cancel_left (hsent.symm.trans hsent')
  rw [← hreplies, List.mem_filter]
  exact (and_iff_left rfl).symm

/-- A run tells a failure exactly when it fails. -/
theorem tells_iff_fails {x : MarkdownRun σ ν} {s : RSession σ ν}
    {messages : List (Message ν)}
    (hsent : (step s x).sent = s.sent ++ messages) :
    (∃ details queryId,
      .error kError_ExecFile_MarkdownFailed details queryId ∈ messages) ↔
      x.Fails s := by
  have hspec := executeRMarkdown_spec x.svc x.fileName x.command s
  rcases hspec.cases with
    ⟨_, -, hnone, -, hend⟩ | ⟨e, -, c, hfailure, hprogress, -⟩
  · cases hreports : markdownReports x.svc x.fileName s.tmpDir s.outer with
    | true =>
        rw [MarkdownEnd, hreports, if_pos rfl] at hend
        obtain ⟨finfo, hprogress⟩ := hend
        apply iff_of_false
        · rintro ⟨details, queryId, hmem⟩
          cases (error_mem_of_progress hprogress hsent ..).mp hmem
        · rintro ⟨-, hfalse⟩
          rw [hreports] at hfalse
          cases hfalse
    | false =>
        rw [MarkdownEnd, hreports] at hend
        obtain ⟨details, hprogress⟩ := hend
        apply iff_of_true
        · exact ⟨details, _, (error_mem_of_progress hprogress hsent ..).mpr
            (List.mem_singleton_self _)⟩
        · exact ⟨hnone, hreports⟩
  · apply iff_of_false
    · rintro ⟨details, queryId, hmem⟩
      cases (error_mem_of_progress hprogress hsent ..).mp hmem
    · rintro ⟨hnone, -⟩
      rw [hnone] at hfailure
      cases hfailure

/-- A failing run tells its own text exactly when nothing had been captured
before it. -/
theorem tellsOwnText_iff_empty (x : MarkdownRun σ ν) (s : RSession σ ν) :
    x.TellsOwnText s ↔ (x.Fails s → s.stdOutCapture = "") := by
  obtain ⟨messages, hsent, htold⟩ := (x.step_captures s).tells
  constructor
  · rintro ⟨messages', hsent', hown⟩ hfails
    obtain rfl : messages = messages' :=
      List.append_cancel_left (hsent.symm.trans hsent')
    obtain ⟨details, queryId, hmem⟩ := (tells_iff_fails hsent).mpr hfails
    have hdetails := (htold details queryId hmem).symm.trans
      (hown details queryId hmem)
    have hcaptured := (String.append_right_inj _).mp hdetails
    exact String.append_eq_right_iff.mp hcaptured
  · intro h
    refine ⟨messages, hsent, ?_⟩
    intro details queryId hmem
    have hempty := h ((tells_iff_fails hsent).mp ⟨details, queryId, hmem⟩)
    have hdetails := htold details queryId hmem
    rwa [hempty, String.empty_append] at hdetails

/-- Nothing has been captured after some runs exactly when none of them has
had anything captured. -/
theorem stdOutCapture_run (s : RSession σ ν) (runs : List (MarkdownRun σ ν)) :
    (Transition.run step s runs).stdOutCapture = "" ↔
      s.stdOutCapture = "" ∧
        Transition.Along step (fun s x => x.text s = "") s runs := by
  induction runs generalizing s with
  | nil => simp
  | cons x runs ih =>
      rw [Transition.run_cons, Transition.along_cons, ih,
        (x.step_captures s).stdOutCapture, String.append_eq_empty_iff, and_assoc]

end MarkdownRun

/-- After some runs, a run tells exactly its own text if it fails, just when
none of the runs before it has had anything captured. -/
theorem tellsOwnText_iff {s : RSession σ ν} (hstart : s.stdOutCapture = "")
    (earlier : List (MarkdownRun σ ν)) (x : MarkdownRun σ ν) :
    x.TellsOwnText (Transition.run MarkdownRun.step s earlier) ↔
      (x.Fails (Transition.run MarkdownRun.step s earlier) →
        Transition.Along MarkdownRun.step (fun s y => y.text s = "") s
          earlier) := by
  rw [MarkdownRun.tellsOwnText_iff_empty, MarkdownRun.stdOutCapture_run]
  exact imp_congr_right fun _ => and_iff_right hstart

/-! ## Two reports -/

/-- R makes no HTML, and says why. -/
def withoutPandoc : Services ℕ Unit :=
  { Services.succeeding () with
    output := fun c => if c.runsR then [⟨"no pandoc\n", true, true⟩] else []
    output_eq_nil := fun c h => if_neg (by rw [h]; decide)
    holds := fun _ _ => false }

/-- A report that fails. -/
def failingRun : MarkdownRun ℕ Unit where
  svc := withoutPandoc
  fileName := "report.Rmd"
  command := ⟨.object [("msg", .string "execFile")], .ExecFile⟩

/-- A report that is rendered without a word. -/
def silentRun : MarkdownRun ℕ Unit :=
  { failingRun with svc := .succeeding () }

theorem tellsOwnText_after_silence :
    failingRun.TellsOwnText (Transition.run MarkdownRun.step
      (RSession.fresh 0) [silentRun]) :=
  (tellsOwnText_iff rfl [silentRun] failingRun).mpr fun _ => ⟨rfl, trivial⟩

/-- The second of two failing runs tells the text of the first again. -/
theorem tellsOwnText_fails_on_second :
    ¬failingRun.TellsOwnText (Transition.run MarkdownRun.step
      (RSession.fresh 0) [failingRun]) := by
  intro htells
  have hempty := (failingRun.tellsOwnText_iff_empty _).mp htells ⟨rfl, rfl⟩
  revert hempty
  decide

end Rc2Compute.Session
