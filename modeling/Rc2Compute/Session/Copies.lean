import Rc2Compute.Session.Routine

/-!
# Copies of the session

A child whose `execve` of `texi2pdf` fails comes back from it as a copy of the
session, and sends on the same socket.  Nothing else a command does makes a
copy: a file of Sweave that has left a `.tex` file is the only way there.
-/

namespace Rc2Compute.Session

variable {σ ν : Type}

/-- No copy has sent anything. -/
def SameCopies (s s' : RSession σ ν) : Prop :=
  s'.copySent = s.copySent

instance : Std.Refl (SameCopies (σ := σ) (ν := ν)) where
  refl _ := rfl

instance : IsTrans (RSession σ ν) SameCopies where
  trans _ _ _ hab hbc := Eq.trans hbc hab

/-- Between `s` and `s'` copies have sent `messages`. -/
def Copied (messages : List (Message ν)) (s s' : RSession σ ν) : Prop :=
  s'.copySent = s.copySent ++ messages

section Copied

variable {s s' s'' : RSession σ ν} {messages : List (Message ν)}

theorem SameCopies.copied (h : SameCopies s s') : Copied [] s s' := by
  rw [Copied, List.append_nil]
  exact h

theorem SameCopies.trans_copied (h : SameCopies s s')
    (h' : Copied messages s' s'') : Copied messages s s'' := by
  rw [Copied, h'.trans (congrArg (· ++ messages) h)]

theorem Copied.trans_same (h : Copied messages s s') (h' : SameCopies s' s'') :
    Copied messages s s'' :=
  Eq.trans h' h

theorem Copied.drop (h : Copied messages s s') :
    s'.copySent.drop s.copySent.length = messages := by
  rw [h, List.drop_left]

/-- What is done without copies, after something else. -/
theorem Copied.rest {α : Type} {x : Handler σ ν α}
    (h : Copied messages s s') (hx : Act.Moves SameCopies x) :
    Act.wp x (fun _ => Copied messages s) (fun _ => Copied messages s) s' :=
  (hx s').mono (fun _ _ => h.trans_same) fun _ _ => h.trans_same

theorem copied_nil_of_moves {α : Type} {x : Handler σ ν α}
    (hx : Act.Moves SameCopies x) (s : RSession σ ν) :
    Act.wp x (fun _ => Copied [] s) (fun _ => Copied [] s) s :=
  (SameCopies.copied rfl).rest hx

end Copied

variable (svc : Services σ ν)

theorem sameCopies_commands : CommandRoutine svc SameCopies where
  called _ _ _ := rfl
  sending _ _ _ := rfl
  bufferFlushed _ _ := rfl
  ignoring _ _ := rfl
  capturing _ _ := rfl
  sourcing _ _ := rfl
  scheduling _ _ := rfl
  resetWatch _ := rfl
  reading _ _ := rfl
  answering _ _ _ := rfl
  watching _ _ := rfl

/-! ## What copies send -/

/-- What a copy sends when `Sweave` has returned. -/
def texCopies (texPath : String) (outer : σ) : List (Message ν) :=
  match svc.throws (.pathExists texPath) with
  | some _ => []
  | none =>
      if svc.holds (.pathExists texPath) outer then
        svc.copySends texPath (svc.effect (.pathExists texPath) outer)
      else []

/-- What a copy sends while `executeSweave` runs. -/
def sweaveCopies (filePath tmpDir : String) (outer : σ) : List (Message ν) :=
  let scratchPath := append tmpDir ".rc2sw"
  let calls := scratchCalls scratchPath ++ [sweaveFile filePath]
  match svc.firstFailure calls with
  | some _ => []
  | none =>
      texCopies svc
        (append scratchPath (stem (append tmpDir filePath) ++ ".tex"))
        (svc.after calls outer)

/-- What a copy sends while a known file is run. -/
def fileCopies (fpath : String) (s : RSession σ ν) : List (Message ν) :=
  match svc.firstFailure
      (Services.callsIf s.watchVariables .captureEnvironment) with
  | some _ => []
  | none =>
      if fileKind fpath = .sweave then
        sweaveCopies svc fpath s.tmpDir (fileOuter svc s)
      else []

/-- What a copy sends while a command is run. -/
def commandCopies (command : JsonCommand) (s : RSession σ ν) :
    List (Message ν) :=
  if command.type = .ExecFile then
    match commandFile svc command s with
    | some fpath => fileCopies svc fpath s
    | none => []
  else []

/-! ## The handlers -/

theorem collectPdf_copied (srcPath scratchPath baseName : String)
    (s : RSession σ ν) :
    let texPath := append scratchPath (baseName ++ ".tex")
    Act.wp (collectPdf svc srcPath scratchPath baseName)
      (fun _ => Copied (svc.copySends texPath s.outer) s)
      (fun _ => Copied (svc.copySends texPath s.outer) s) s := by
  intro texPath
  have hforked : Copied (svc.copySends texPath s.outer) s
      ((s.ignoring true).forked svc texPath) := rfl
  rw [collectPdf, Act.wp_bind, Act.wp_get]
  beta_reduce
  rw [Act.wp_bind, Act.wp_modify]
  apply forkTexi2pdf_rule
  · exact fun _ _ => hforked
  intro _
  have hroutine := (sameCopies_commands svc).toRoutine
  apply hforked.rest
  apply (Act.Moves.modify (hroutine.ignoring false)).bind
  intro _
  exact hroutine.collectResult_moves _ _ _ _

theorem collectTex_copied (srcPath scratchPath baseName : String)
    (s : RSession σ ν) :
    let texPath := append scratchPath (baseName ++ ".tex")
    Act.wp (collectTex svc srcPath scratchPath baseName)
      (fun _ => Copied (texCopies svc texPath s.outer) s)
      (fun _ => Copied (texCopies svc texPath s.outer) s) s := by
  intro texPath
  have hlooked : SameCopies s (s.called svc (.pathExists texPath)) := rfl
  rw [collectTex, texCopies]
  apply test_rule
  · intro e hthrows
    rw [hthrows]
    exact hlooked.copied
  intro htested
  rw [htested]
  dsimp only
  split
  · exact (collectPdf_copied svc srcPath scratchPath baseName _).mono
      (fun _ _ => hlooked.trans_copied) fun _ _ => hlooked.trans_copied
  · exact hlooked.copied

theorem executeSweave_copied (filePath : String) (command : JsonCommand)
    (s : RSession σ ν) :
    Act.wp (executeSweave svc filePath command)
      (fun _ => Copied (sweaveCopies svc filePath s.tmpDir s.outer) s)
      (fun _ => Copied (sweaveCopies svc filePath s.tmpDir s.outer) s) s := by
  let scratchPath := append s.tmpDir ".rc2sw"
  have hroutine := (sameCopies_commands svc).toRoutine
  have hcalled : ∀ c (s₁ : RSession σ ν), SameCopies s s₁ →
      SameCopies s (s₁.called svc c) := fun _ _ h => h
  have hmade := hcalled (.createDirectories scratchPath) s rfl
  have hmoved := hcalled (changeDirectory scratchPath) _ hmade
  have hsame := hcalled (sweaveFile filePath) _ hmoved
  rw [executeSweave, Act.wp_bind, Act.wp_get, sweaveCopies]
  beta_reduce
  rw [scratchCalls, List.cons_append, List.singleton_append]
  apply call_rule
  · intro e hthrows
    rw [Services.firstFailure_cons_of_some hthrows]
    exact hmade.copied
  intro hcreated
  rw [Services.firstFailure_cons_of_none hcreated]
  apply call_rule
  · intro e hthrows
    rw [Services.firstFailure_cons_of_some hthrows]
    exact hmoved.copied
  intro hentered
  rw [Services.firstFailure_cons_of_none hentered, Act.wp_bind,
    wp_catchRuntimeError]
  apply call_rule
  · intro e hthrows
    rw [Services.firstFailure_cons_of_some hthrows]
    dsimp only
    split
    · -- an R error is acknowledged without a `.tex` file
      rw [Act.wp_bind, wp_sendOutputBufferToClient, Act.wp_bind,
        wp_scheduleExecComplete]
      exact hsame.copied
    · exact hsame.copied
  intro hswept
  rw [Services.firstFailure_singleton_of_none hswept, Act.wp_pure, if_pos rfl,
    finishSweave, Act.wp_bind]
  refine (collectTex_copied svc _ scratchPath _ _).mono ?_ ?_
  · intro finfo s₁ hcopied
    exact (hsame.trans_copied hcopied).rest
      (hroutine.leaveScratch_moves scratchPath command finfo)
  · intro e s₁ hcopied
    exact hsame.trans_copied hcopied

theorem executeByExtension_copied (fpath : String) (command : JsonCommand)
    (s : RSession σ ν) :
    let messages :=
      if fileKind fpath = .sweave then
        sweaveCopies svc fpath s.tmpDir s.outer
      else []
    Act.wp (executeByExtension svc fpath command)
      (fun _ => Copied messages s) (fun _ => Copied messages s) s := by
  have hroutine := (sameCopies_commands svc).toRoutine
  intro messages
  rw [executeByExtension, Act.wp_bind, Act.wp_get]
  beta_reduce
  split
  next hmarkdown =>
    have hnil : messages = [] := if_neg (by simp [fileKind, hmarkdown])
    rw [hnil]
    exact copied_nil_of_moves (hroutine.executeRMarkdown_moves _ _) s
  next hmarkdown =>
  split
  next hsweave =>
    have hkind : fileKind fpath = .sweave := by
      rw [fileKind, if_neg hmarkdown, if_pos hsweave]
    have hmessages : messages = sweaveCopies svc fpath s.tmpDir s.outer :=
      if_pos hkind
    rw [hmessages]
    exact executeSweave_copied svc fpath command s
  next hsweave =>
  have hnil : messages = [] := by
    apply if_neg
    rw [fileKind, if_neg hmarkdown, if_neg hsweave]
    split
    · simp
    · simp
  rw [hnil]
  split
  next hsource =>
    exact copied_nil_of_moves (hroutine.executeSource_moves _ _) s
  next hsource => exact SameCopies.copied rfl

theorem executeKnownFile_copied (fpath : String) (command : JsonCommand)
    (s : RSession σ ν) :
    Act.wp (executeKnownFile svc fpath command)
      (fun _ => Copied (fileCopies svc fpath s) s)
      (fun _ => Copied (fileCopies svc fpath s) s) s := by
  rw [executeKnownFile, fileCopies, Act.wp_bind, Act.wp_modify, Act.wp_bind,
    Act.wp_get]
  apply callIf_rule
  · intro e hthrows
    have hfirst : svc.firstFailure
        (Services.callsIf s.watchVariables .captureEnvironment) =
          some ⟨some .captureEnvironment, e⟩ :=
      Services.firstFailure_callsIf_singleton_of_some hthrows
    rw [hfirst]
    exact SameCopies.copied rfl
  intro hcaptured
  have hfirst : svc.firstFailure
      (Services.callsIf s.watchVariables .captureEnvironment) = none :=
    Services.firstFailure_callsIf_singleton_of_none hcaptured
  have hsame : SameCopies s ((s.moving svc.resetWatch).calledIf svc
      s.watchVariables .captureEnvironment) := by
    cases s.watchVariables with
    | true => rfl
    | false => rfl
  have houter : ((s.moving svc.resetWatch).calledIf svc s.watchVariables
      .captureEnvironment).outer = fileOuter svc s := by
    simp [fileOuter]
  have hrun := executeByExtension_copied svc fpath command
    ((s.moving svc.resetWatch).calledIf svc s.watchVariables
      .captureEnvironment)
  rw [houter, RSession.calledIf_tmpDir] at hrun
  rw [hfirst]
  exact hrun.mono (fun _ _ => hsame.trans_copied) fun _ _ => hsame.trans_copied

theorem executeFile_copied (command : JsonCommand) (s : RSession σ ν) :
    let messages := match commandFile svc command s with
      | some fpath => fileCopies svc fpath s
      | none => []
    Act.wp (executeFile svc command) (fun _ => Copied messages s)
      (fun _ => Copied messages s) s := by
  intro messages
  rw [executeFile]
  apply read_rule
  · intro e harg
    have hnil : messages = [] := by simp [messages, commandFile, harg]
    rw [hnil]
    exact SameCopies.copied rfl
  intro argument harg
  rw [Act.wp_bind, Act.wp_get]
  beta_reduce
  cases hpath : svc.filePathForId s.outer (atol argument.toList) with
  | none =>
      have hnil : messages = [] := by
        simp [messages, commandFile, harg, hpath]
      rw [hnil]
      exact SameCopies.copied rfl
  | some fpath =>
      have hmessages : messages = fileCopies svc fpath s := by
        simp [messages, commandFile, harg, hpath]
      rw [hmessages]
      exact executeKnownFile_copied svc fpath command s

theorem dispatchCommand_copied {command : JsonCommand}
    (hclose : command.type ≠ .Close) (s : RSession σ ν) :
    Act.wp (dispatchCommand svc command)
      (fun _ => Copied (commandCopies svc command s) s)
      (fun _ => Copied (commandCopies svc command s) s) s := by
  rw [commandCopies]
  split
  next htype =>
    rw [dispatchCommand, htype]
    exact executeFile_copied svc command s
  next htype =>
    exact copied_nil_of_moves
      ((sameCopies_commands svc).dispatchCommand_moves command
        (fun h => absurd h hclose) fun h => absurd h htype) s

end Rc2Compute.Session
