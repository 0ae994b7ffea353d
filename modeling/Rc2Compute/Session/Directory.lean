import Rc2Compute.Session.Handlers

/-!
# R's working directory

R moves to another directory when a command begins with `setwd`, and that does
not fail.  The handlers of R Markdown and Sweave files move to a scratch
directory and back, with calls that can throw in between.
-/

namespace Rc2Compute.Session

open Files (FileInfo)

variable {σ ν : Type}

/-! ## The argument of `setwd` -/

/-- The quotes of R's string literals. -/
def rQuotes : List Char := "'\"".toList

/-- The text of a string literal, read behind its opening quote. -/
def rLiteral (quote : Char) : List Char → Option (List Char)
  | '\\' :: c :: rest => (rLiteral quote rest).map (c :: ·)
  | c :: rest =>
      if c = quote then some [] else (rLiteral quote rest).map (c :: ·)
  | [] => none

/-- The directory R moves to when it evaluates a command that begins with
`setwd`. -/
def setwdArgument (rcmd : String) : Option String :=
  match rcmd.toList with
  | 's' :: 'e' :: 't' :: 'w' :: 'd' :: '(' :: quote :: rest =>
      if quote ∈ rQuotes then (rLiteral quote rest).map String.ofList
      else none
  | _ => none

/-- A text that means itself inside a string literal. -/
def PlainText (text : String) : Prop :=
  ∀ c ∈ text.toList, c ∉ rQuotes ∧ c ≠ '\\'

instance (text : String) : Decidable (PlainText text) :=
  List.decidableBAll (fun c => c ∉ rQuotes ∧ c ≠ '\\') text.toList

theorem PlainText.append {text rest : String} (h : PlainText text)
    (hrest : PlainText rest) : PlainText (text ++ rest) := by
  intro c hc
  rw [String.toList_append, List.mem_append] at hc
  rcases hc with hc | hc
  · exact h c hc
  · exact hrest c hc

theorem PlainText.escape_quotes {text : String} (h : PlainText text) :
    escape_quotes text = text := by
  have hsame : text.toList.flatMap (fun c =>
      if c = '"' ∨ c = '\\' then ['\\', c] else [c]) =
        text.toList.flatMap fun c => [c] := by
    apply List.flatMap_congr
    intro c hc
    have hquote : c ≠ '"' := by
      rintro rfl
      exact (h '"' hc).1 (by decide)
    rw [if_neg (not_or.mpr ⟨hquote, (h c hc).2⟩)]
  rw [Session.escape_quotes, hsame, List.flatMap_singleton',
    String.ofList_toList]

theorem rLiteral_quote {quote : Char} (hquote : quote ∈ rQuotes)
    (rest : List Char) : rLiteral quote (quote :: rest) = some [] := by
  have hne : quote ≠ '\\' := by
    rintro rfl
    revert hquote
    decide
  rw [rLiteral.eq_2 quote quote rest fun _ _ h _ => hne h, if_pos rfl]

theorem rLiteral_append {quote : Char} (hquote : quote ∈ rQuotes)
    {text : List Char} (h : ∀ c ∈ text, c ∉ rQuotes ∧ c ≠ '\\')
    (rest : List Char) : rLiteral quote (text ++ quote :: rest) = some text := by
  induction text with
  | nil => exact rLiteral_quote hquote rest
  | cons c text ih =>
      obtain ⟨hc, htext⟩ := List.forall_mem_cons.mp h
      have hne : c ≠ quote := by
        rintro rfl
        exact hc.1 hquote
      rw [List.cons_append,
        rLiteral.eq_2 quote c _ fun _ _ h _ => hc.2 h, if_neg hne, ih htext]
      rfl

theorem setwdArgument_of_plain (quote : Char) {rcmd path : String}
    {rest : List Char} (hquote : quote ∈ rQuotes) (h : PlainText path)
    (hrcmd : rcmd.toList =
      "setwd(".toList ++ quote :: (path.toList ++ quote :: rest)) :
    setwdArgument rcmd = some path := by
  have hcons : rcmd.toList = 's' :: 'e' :: 't' :: 'w' :: 'd' :: '(' ::
      quote :: (path.toList ++ quote :: rest) := hrcmd
  unfold setwdArgument
  rw [hcons]
  change (if quote ∈ rQuotes then (rLiteral quote
    (path.toList ++ quote :: rest)).map String.ofList else none) = some path
  rw [if_pos hquote, rLiteral_append hquote h, Option.map_some,
    String.ofList_toList]

/-! ## Temporary directories -/

/-- A text `uuid_unparse_lower` can write. -/
structure IsUUID (text : String) : Prop where
  ne_empty : text ≠ ""
  plain : ∀ c ∈ text.toList, c.isAlphanum = true ∨ c = '-'

instance (text : String) : Decidable (IsUUID text) :=
  have := List.decidableBAll (fun c => c.isAlphanum = true ∨ c = '-')
    text.toList
  decidable_of_iff (text ≠ "" ∧
      ∀ c ∈ text.toList, c.isAlphanum = true ∨ c = '-')
    ⟨fun h => ⟨h.1, h.2⟩, fun h => ⟨h.ne_empty, h.plain⟩⟩

/-- A directory named by `TemporaryDirectory` or `handleOpenCommand`. -/
def IsTemporary (path : String) : Prop :=
  ∃ uuid, IsUUID uuid ∧ path = "/tmp/" ++ uuid

theorem IsUUID.plainText {text : String} (h : IsUUID text) :
    PlainText text := by
  intro c hc
  have hplain := h.plain c hc
  constructor
  · intro hquote
    have hcases : c = Char.ofNat 39 ∨ c = '"' := by
      simpa [rQuotes] using hquote
    rcases hcases with rfl | rfl
    · revert hplain
      decide
    · revert hplain
      decide
  · rintro rfl
    revert hplain
    decide

namespace IsTemporary

variable {path : String}

theorem plainText (h : IsTemporary path) : PlainText path := by
  obtain ⟨uuid, huuid, rfl⟩ := h
  exact PlainText.append (by decide) huuid.plainText

theorem ne_empty (h : IsTemporary path) : path ≠ "" := by
  obtain ⟨uuid, huuid, rfl⟩ := h
  intro hempty
  have hlist := congrArg String.toList hempty
  simp at hlist

/-- A UUID ends in a digit, not in a slash. -/
theorem getLast?_ne (h : IsTemporary path) :
    path.toList.getLast? ≠ some '/' := by
  obtain ⟨uuid, huuid, rfl⟩ := h
  have hne : uuid.toList ≠ [] := by
    intro hnil
    exact huuid.ne_empty (String.toList_eq_nil_iff.mp hnil)
  rw [String.toList_append, List.getLast?_append_of_ne_nil _ hne]
  intro hlast
  have hplain := huuid.plain '/' (List.mem_of_getLast? hlast)
  revert hplain
  decide

theorem append_eq (h : IsTemporary path) {component : String}
    (hcomponent : component.toList.head? ≠ some '/') :
    append path component = path ++ "/" ++ component := by
  rw [append, if_neg]
  rintro (hhead | hlast | hempty)
  · exact hcomponent hhead
  · exact h.getLast?_ne hlast
  · exact h.ne_empty hempty

/-- The directory of the scratch directory. -/
theorem parentPath_scratch (h : IsTemporary path) :
    parentPath (append path ".rc2sw") = path := by
  have hlist : (append path ".rc2sw").toList.reverse =
      "ws2cr.".toList ++ '/' :: path.toList.reverse := by
    rw [h.append_eq (by decide), String.toList_append, String.toList_append,
      List.reverse_append, List.reverse_append]
    rfl
  have hdrop : (append path ".rc2sw").toList.reverse.dropWhile (· ≠ '/') =
      '/' :: path.toList.reverse := by
    have hname : ∀ c ∈ "ws2cr.".toList, decide (c ≠ '/') = true :=
      List.all_eq_true.mp (by decide)
    rw [hlist, List.dropWhile_append_of_pos hname]
    rfl
  rw [parentPath, hdrop, List.drop_one, List.tail_cons, List.reverse_reverse,
    String.ofList_toList]

theorem scratch_plainText (h : IsTemporary path) :
    PlainText (append path ".rc2sw") := by
  rw [h.append_eq (by decide)]
  exact (h.plainText.append (by decide)).append (by decide)

theorem scratch_ne (h : IsTemporary path) : append path ".rc2sw" ≠ path := by
  rw [h.append_eq (by decide)]
  intro heq
  have hlength := congrArg String.length heq
  have hslash : "/".length = 1 := rfl
  rw [String.length_append, String.length_append, hslash] at hlength
  omega

end IsTemporary

/-! ## The commands that move R -/

/-- The directory a call moves R to.  What the user has R run moves it
nowhere. -/
def Call.setwd : Call → Option String
  | .parseEvalQNT rcmd | .parseEvalNT rcmd | .parseEval rcmd =>
      setwdArgument rcmd
  | _ => none

theorem renderFile_setwd {tmp : String} (h : PlainText tmp)
    (fileName : String) : (renderFile fileName tmp).setwd = some tmp := by
  change setwdArgument ("setwd('" ++ tmp ++ "');render(\"" ++
    escape_quotes fileName ++ "\", output_format=html_document());") = some tmp
  apply setwdArgument_of_plain (Char.ofNat 39)
  · decide
  · exact h
  · simp only [String.toList_append, List.append_assoc]
    rfl

theorem resetDirectory_setwd {path : String} (h : PlainText path) :
    (resetDirectory path).setwd = some path := by
  change setwdArgument ("setwd(\"" ++ path ++
    "\");options(dev=\"rc2.pngdev\", bitmapType=\"cairo\")") = some path
  apply setwdArgument_of_plain '"'
  · decide
  · exact h
  · simp only [String.toList_append, List.append_assoc]
    rfl

theorem changeDirectory_setwd {path : String} (h : PlainText path) :
    (changeDirectory path).setwd = some path := by
  change setwdArgument ("setwd('" ++ escape_quotes path ++ "')") = some path
  rw [h.escape_quotes]
  apply setwdArgument_of_plain (Char.ofNat 39)
  · decide
  · exact h
  · simp only [String.toList_append, List.append_assoc]
    rfl

theorem setwdArgument_of_not_prefix {rcmd : String}
    (h : ¬"setwd(".toList <+: rcmd.toList) : setwdArgument rcmd = none := by
  unfold setwdArgument
  split
  next quote rest hrcmd =>
    rw [hrcmd] at h
    exact absurd ⟨quote :: rest, rfl⟩ h
  next => rfl

theorem sweaveFile_setwd (filePath : String) :
    (sweaveFile filePath).setwd = none := by
  apply setwdArgument_of_not_prefix
  simp [String.toList_append]

theorem sourceFile_setwd (fpath : String) :
    (sourceFile fpath).setwd = none := by
  apply setwdArgument_of_not_prefix
  simp [String.toList_append]

/-- The services, with R's working directory beside what lies behind them.
`moves` says which commands get past their `setwd`. -/
def Services.inDirectory (svc : Services σ ν) (moves : Call → Bool) :
    Services (σ × String) ν where
  throws := svc.throws
  output := svc.output
  output_eq_nil := svc.output_eq_nil
  effect c outer :=
    (svc.effect c outer.1, if moves c then c.setwd.getD outer.2 else outer.2)
  holds c outer := svc.holds c outer.1
  parseResult := svc.parseResult
  helpPaths := svc.helpPaths
  generateUUID := svc.generateUUID
  summarises := svc.summarises
  toJson outer := svc.toJson outer.1
  toJsonOf outer := svc.toJsonOf outer.1
  jsonDelta outer := svc.jsonDelta outer.1
  sizePositive path outer := svc.sizePositive path outer.1
  copySends texPath outer := svc.copySends texPath outer.1
  filePathForId outer := svc.filePathForId outer.1
  fileInfoForId outer := svc.fileInfoForId outer.1
  foundFile outer := svc.foundFile outer.1
  resetWatch outer := (svc.resetWatch outer.1, outer.2)
  checkWatch outer := svc.checkWatch outer.1
  uninitialised := svc.uninitialised

/-- R's working directory. -/
def RSession.directory (s : RSession (σ × String) ν) : String :=
  s.outer.2

/-- R stays where it is, and so does the session. -/
structure SameDirectory (s s' : RSession (σ × String) ν) : Prop where
  directory : s'.directory = s.directory
  tmpDir : s'.tmpDir = s.tmpDir

namespace SameDirectory

instance : Std.Refl (SameDirectory (σ := σ) (ν := ν)) where
  refl _ := ⟨rfl, rfl⟩

instance : IsTrans (RSession (σ × String) ν) SameDirectory where
  trans _ _ _ hab hbc :=
    ⟨hbc.directory.trans hab.directory, hbc.tmpDir.trans hab.tmpDir⟩

theorem trans {s s' s'' : RSession (σ × String) ν} (h : SameDirectory s s')
    (h' : SameDirectory s' s'') : SameDirectory s s'' :=
  IsTrans.trans _ _ _ h h'

end SameDirectory

/-- An action that moves nothing leaves R in the directory it is in. -/
theorem wp_of_sameDirectory {α : Type} {x : Handler (σ × String) ν α}
    (hx : Act.Moves SameDirectory x) {s : RSession (σ × String) ν}
    {path : String} (hs : s.directory = path) :
    Act.wp x (fun _ s' => s'.directory = path ∧ s'.tmpDir = s.tmpDir)
      (fun _ s' => s'.directory = path ∧ s'.tmpDir = s.tmpDir) s := by
  refine (hx s).mono ?_ ?_
  · intro _ s' hsame
    exact ⟨hsame.directory.trans hs, hsame.tmpDir⟩
  · intro _ s' hsame
    exact ⟨hsame.directory.trans hs, hsame.tmpDir⟩

section Handlers

variable (svc : Services σ ν) (moves : Call → Bool)

theorem called_directory {c : Call} {path : String}
    (hsetwd : c.setwd = some path) (s : RSession (σ × String) ν) :
    (s.called (svc.inDirectory moves) c).directory =
      if moves c then path else s.directory := by
  change (if moves c then c.setwd.getD s.outer.2 else s.outer.2) = _
  rw [hsetwd, Option.getD_some]
  rfl

theorem called_sameDirectory {c : Call} (hstays : c.setwd = none)
    (s : RSession (σ × String) ν) :
    SameDirectory s (s.called (svc.inDirectory moves) c) where
  directory := by
    change (if moves c then c.setwd.getD s.outer.2 else s.outer.2) = s.outer.2
    rw [hstays, Option.getD_none, ite_self]
  tmpDir := rfl

theorem call_sameDirectory {c : Call} (hstays : c.setwd = none) :
    Act.Moves SameDirectory (call (svc.inDirectory moves) c) := by
  intro s
  have hcalled := called_sameDirectory svc moves hstays s
  rw [wp_call]
  split
  · exact hcalled
  · exact hcalled

theorem test_sameDirectory {c : Call} (hstays : c.setwd = none) :
    Act.Moves SameDirectory (test (svc.inDirectory moves) c) :=
  Act.Moves.get.bind fun _ => (call_sameDirectory svc moves hstays).bind fun _ =>
    Act.Moves.pure _

theorem generated_sameDirectory (path : String) :
    Act.Moves SameDirectory (generated (svc.inDirectory moves) path) := by
  apply (test_sameDirectory svc moves rfl).bind
  intro found
  exact Act.Moves.ite (Act.Moves.get.bind fun _ => Act.Moves.pure _)
    (Act.Moves.pure _)

theorem findOrAddFile_sameDirectory (fname : String) :
    Act.Moves SameDirectory (findOrAddFile (svc.inDirectory moves) fname) :=
  Act.Moves.get.bind fun _ => (call_sameDirectory svc moves rfl).bind fun _ =>
    Act.Moves.pure _

theorem flushOutputBuffer_sameDirectory :
    Act.Moves SameDirectory (flushOutputBuffer (svc.inDirectory moves)) := by
  intro s
  have hpngoff : pngoff.setwd = none := by decide
  have hcalled := called_sameDirectory svc moves hpngoff (s.ignoring true)
  rw [wp_flushOutputBuffer]
  split
  · exact ⟨hcalled.directory, hcalled.tmpDir⟩
  · exact ⟨hcalled.directory, hcalled.tmpDir⟩

theorem forkTexi2pdf_sameDirectory (texPath : String) :
    Act.Moves SameDirectory (forkTexi2pdf (svc.inDirectory moves) texPath) := by
  apply Act.Moves.get.bind
  intro s
  apply (Act.Moves.modify fun _ => ⟨rfl, rfl⟩).bind
  intro _
  exact call_sameDirectory svc moves rfl

theorem collectTex_sameDirectory (srcPath scratchPath baseName : String) :
    Act.Moves SameDirectory
      (collectTex (svc.inDirectory moves) srcPath scratchPath baseName) := by
  apply (test_sameDirectory svc moves rfl).bind
  intro found
  apply Act.Moves.ite _ (Act.Moves.pure _)
  apply Act.Moves.get.bind
  intro s
  apply (Act.Moves.modify fun _ => ⟨rfl, rfl⟩).bind
  intro _
  apply (forkTexi2pdf_sameDirectory svc moves _).bind
  intro _
  apply (Act.Moves.modify fun _ => ⟨rfl, rfl⟩).bind
  intro _
  apply (generated_sameDirectory svc moves _).bind
  intro hasPdf
  apply Act.Moves.ite
  · exact (call_sameDirectory svc moves rfl).bind fun _ =>
      findOrAddFile_sameDirectory svc moves _
  · apply (test_sameDirectory svc moves rfl).bind
    intro hasLog
    exact Act.Moves.ite
      ((call_sameDirectory svc moves rfl).bind fun _ => Act.Moves.pure _)
      (Act.Moves.pure _)

/-- Rendering moves R to the directory of the copy, however it ends. -/
theorem renderMarkdown_directory {tmp : String} (htmp : PlainText tmp)
    (fileName htmlPath : String) (s : RSession (σ × String) ν) :
    let away := if moves (renderFile fileName tmp) then tmp else s.directory
    Act.wp (renderMarkdown (svc.inDirectory moves) fileName tmp htmlPath)
      (fun _ s' => s'.directory = away ∧ s'.tmpDir = s.tmpDir)
      (fun _ s' => s'.directory = away ∧ s'.tmpDir = s.tmpDir) s := by
  intro away
  have hmoved := called_directory svc moves (c := renderFile fileName tmp)
    (renderFile_setwd htmp fileName) ((s.ignoring true).capturing true)
  rw [renderMarkdown, wp_ignoringOutput, Act.wp_bind, Act.wp_modify]
  apply call_rule
  · intro e _
    exact ⟨hmoved, rfl⟩
  intro _
  have hrest : Act.Moves SameDirectory (do
      Act.modify (RSession.capturing false)
      flushOutputBuffer (svc.inDirectory moves)
      let tmpHtmlPath := append tmp (htmlName fileName)
      if ← test (svc.inDirectory moves) (.pathExists tmpHtmlPath) then
        call (svc.inDirectory moves) (.copyFile tmpHtmlPath htmlPath)
        pure true
      else
        pure false) := by
    apply (Act.Moves.modify fun _ => ⟨rfl, rfl⟩).bind
    intro _
    apply (flushOutputBuffer_sameDirectory svc moves).bind
    intro _
    apply (test_sameDirectory svc moves rfl).bind
    intro hasHtml
    exact Act.Moves.ite
      ((call_sameDirectory svc moves rfl).bind fun _ => Act.Moves.pure _)
      (Act.Moves.pure _)
  exact wp_of_sameDirectory hrest hmoved

/-- Reporting begins with the way back. -/
theorem reportMarkdown_directory (fileName : String) (generatedHtml : Bool)
    (command : JsonCommand) {s : RSession (σ × String) ν}
    (hdir : PlainText s.tmpDir) :
    let back := if moves (resetDirectory s.tmpDir) then s.tmpDir
      else s.directory
    Act.wp (reportMarkdown (svc.inDirectory moves) fileName generatedHtml command)
      (fun _ s' => s'.directory = back) (fun _ s' => s'.directory = back) s := by
  intro back
  have hmoved := called_directory svc moves (c := resetDirectory s.tmpDir)
    (resetDirectory_setwd hdir) s
  rw [reportMarkdown, Act.wp_bind, Act.wp_get]
  apply call_rule
  · intro e _
    exact hmoved
  intro _
  have hrest : Act.Moves SameDirectory (do
      let fileGenerated ←
        generated (svc.inDirectory moves) (append s.tmpDir (htmlName fileName))
      if generatedHtml && fileGenerated then
        ignoringOutput do
          let finfo ← findOrAddFile (svc.inDirectory moves) (htmlName fileName)
          scheduleExecCompleteAcknowledgmenet command finfo
      else do
        let s ← Act.get
        sendJsonToClientSource (formatErrorAsJson
          kError_ExecFile_MarkdownFailed
          ("failed to generate html:" ++ s.stdOutCapture) s.currentQueryId)) := by
    apply (generated_sameDirectory svc moves _).bind
    intro fileGenerated
    apply Act.Moves.ite
    · apply Act.Moves.ensuring _ fun _ => ⟨rfl, rfl⟩
      apply (Act.Moves.modify fun _ => ⟨rfl, rfl⟩).bind
      intro _
      apply (findOrAddFile_sameDirectory svc moves _).bind
      intro finfo
      exact Act.Moves.get.bind fun _ => Act.Moves.modify fun _ => ⟨rfl, rfl⟩
    · exact Act.Moves.get.bind fun _ => Act.Moves.modify fun _ => ⟨rfl, rfl⟩
  exact (wp_of_sameDirectory hrest hmoved).mono (fun _ _ h => h.1)
    fun _ _ h => h.1

/-- Where R is after a way out and a way back, with something in between that
may fail. -/
theorem home_iff {home there directory : String} {out back : Bool}
    {failure : Option Failure} (hne : there ≠ home)
    (h : failure = none ∧ (directory =
        if back then home else if out then there else home) ∨
      failure.isSome = true ∧ directory = if out then there else home) :
    directory = home ↔ (out = true → failure = none ∧ back = true) := by
  cases out with
  | false =>
      have hhome : directory = home := by
        rcases h with ⟨-, h⟩ | ⟨-, h⟩
        · simpa using h
        · simpa using h
      exact iff_of_true hhome fun hout => by cases hout
  | true =>
      rcases h with ⟨hnone, h⟩ | ⟨hsome, h⟩
      · cases back with
        | false => simpa [h] using hne
        | true => simpa [h] using hnone
      · rw [h, if_pos rfl]
        apply iff_of_false hne
        intro hback
        rw [(hback rfl).1] at hsome
        cases hsome

/-- R is back once it has rendered a file without an exception and its way back
has not failed, or when it has not moved. -/
theorem executeRMarkdown_directory (fileName : String) (command : JsonCommand)
    {s : RSession (σ × String) ν} (hdir : PlainText s.tmpDir)
    (htmp : PlainText (temporaryPath svc))
    (hnew : temporaryPath svc ≠ s.tmpDir) (hcwd : s.directory = s.tmpDir) :
    let restored : Prop :=
      (svc.inDirectory moves).firstFailure
        (copyCalls (svc.inDirectory moves) fileName s.tmpDir) = none →
      moves (renderFile fileName (temporaryPath svc)) = true →
      (svc.inDirectory moves).firstFailure
        (runCalls (svc.inDirectory moves) fileName s.tmpDir s.outer) = none ∧
      moves (resetDirectory s.tmpDir) = true
    Act.wp (executeRMarkdown (svc.inDirectory moves) fileName command)
      (fun _ s' => s'.directory = s.tmpDir ↔ restored)
      (fun _ s' => s'.directory = s.tmpDir ↔ restored) s := by
  intro restored
  have hmake := called_sameDirectory svc moves
    (c := .temporaryDirectory (temporaryPath (svc.inDirectory moves))) rfl s
  have hcopy := hmake.trans <| called_sameDirectory svc moves
    (c := .copyFile (append s.tmpDir fileName)
      (append (temporaryPath (svc.inDirectory moves)) fileName)) rfl _
  rw [executeRMarkdown, Act.wp_bind, Act.wp_get]
  apply call_rule
  · intro e hthrows
    have hfailed : (svc.inDirectory moves).firstFailure
        (copyCalls (svc.inDirectory moves) fileName s.tmpDir) = some ⟨_, e⟩ :=
      Services.firstFailure_cons_of_some hthrows
    apply iff_of_true (hmake.directory.trans hcwd)
    intro hnone
    rw [hfailed] at hnone
    cases hnone
  intro hmade
  apply call_rule
  · intro e hthrows
    have hfailed : (svc.inDirectory moves).firstFailure
        (copyCalls (svc.inDirectory moves) fileName s.tmpDir) = some ⟨_, e⟩ :=
      (Services.firstFailure_cons_of_none hmade).trans
        (Services.firstFailure_cons_of_some hthrows)
    apply iff_of_true (hcopy.directory.trans hcwd)
    intro hnone
    rw [hfailed] at hnone
    cases hnone
  intro hcopied
  have hcopies : (svc.inDirectory moves).firstFailure
      (copyCalls (svc.inDirectory moves) fileName s.tmpDir) = none :=
    (Services.firstFailure_cons_of_none hmade).trans
      (Services.firstFailure_singleton_of_none hcopied)
  rw [Act.wp_bind]
  have hspec := renderMarkdown_spec (svc.inDirectory moves) fileName
    (temporaryPath svc) (append s.tmpDir (htmlName fileName))
  have hend : ∀ s' : RSession (σ × String) ν,
      ((svc.inDirectory moves).firstFailure
          (runCalls (svc.inDirectory moves) fileName s.tmpDir s.outer) = none ∧
        (s'.directory = if moves (resetDirectory s.tmpDir) then s.tmpDir
          else if moves (renderFile fileName (temporaryPath svc)) then
            temporaryPath svc else s.tmpDir) ∨
        ((svc.inDirectory moves).firstFailure
          (runCalls (svc.inDirectory moves) fileName s.tmpDir
            s.outer)).isSome = true ∧
        s'.directory = if moves (renderFile fileName (temporaryPath svc)) then
          temporaryPath svc else s.tmpDir) →
      (s'.directory = s.tmpDir ↔ restored) := by
    intro s' h
    exact (home_iff hnew h).trans ⟨fun h _ => h, fun h => h hcopies⟩
  refine ((renderMarkdown_directory svc moves htmp _ _ _).and (hspec _)).mono ?_ ?_
  · rintro rendered s₂ ⟨⟨haway, hsame⟩, hran, -⟩
    rw [RSession.called_tmpDir, RSession.called_tmpDir] at hsame
    rw [hcopy.directory.trans hcwd] at haway
    have hplain : PlainText s₂.tmpDir := hsame ▸ hdir
    have hreport := reportMarkdown_directory svc moves fileName
      rendered command hplain
    rw [hsame, haway] at hreport
    refine hreport.mono ?_ ?_
    · exact fun _ s' hback => hend s' (Or.inl ⟨hran, hback⟩)
    · exact fun _ s' hback => hend s' (Or.inl ⟨hran, hback⟩)
  · rintro e s₂ ⟨⟨haway, -⟩, c, hfailed, -⟩
    rw [hcopy.directory.trans hcwd] at haway
    exact hend s₂ (Or.inr ⟨Option.isSome_of_eq_some hfailed, haway⟩)

/-- R is back once what `Sweave` has left is collected. -/
theorem finishSweave_directory {tmpDir : String} (hdir : IsTemporary tmpDir)
    (srcPath baseName : String) (command : JsonCommand)
    (s : RSession (σ × String) ν) :
    let failure := (svc.inDirectory moves).firstFailure
      (texCalls (svc.inDirectory moves) srcPath (append tmpDir ".rc2sw") baseName
        s.tmpDir s.outer)
    Act.wp (finishSweave (svc.inDirectory moves) srcPath (append tmpDir ".rc2sw")
        baseName command)
      (fun _ s' => failure = none ∧ s'.directory =
        if moves (changeDirectory tmpDir) then tmpDir else s.directory)
      (fun _ s' => failure = none ∧ (s'.directory =
          if moves (changeDirectory tmpDir) then tmpDir else s.directory) ∨
        failure.isSome = true ∧ s'.directory = s.directory) s := by
  intro failure
  rw [finishSweave, Act.wp_bind]
  refine ((collectTex_sameDirectory svc moves _ _ _ s).and
    (collectTex_spec (svc.inDirectory moves) _ _ _ s)).mono ?_ ?_
  · rintro finfo s₁ ⟨hsame, hnone, -⟩
    rw [hdir.parentPath_scratch]
    have hback := called_directory svc moves (c := changeDirectory tmpDir)
      (changeDirectory_setwd hdir.plainText) s₁
    rw [hsame.directory] at hback
    apply call_rule
    · intro e _
      exact Or.inl ⟨hnone, hback⟩
    intro _
    have hrest : Act.Moves SameDirectory (do
        Act.modify (RSession.ignoring false)
        flushOutputBuffer (svc.inDirectory moves)
        scheduleExecCompleteAcknowledgmenet command finfo) := by
      apply (Act.Moves.modify fun _ => ⟨rfl, rfl⟩).bind
      intro _
      apply (flushOutputBuffer_sameDirectory svc moves).bind
      intro _
      exact Act.Moves.get.bind fun _ => Act.Moves.modify fun _ => ⟨rfl, rfl⟩
    refine (wp_of_sameDirectory hrest hback).mono ?_ ?_
    · rintro _ s' ⟨hhome, -⟩
      exact ⟨hnone, hhome⟩
    · rintro _ s' ⟨hhome, -⟩
      exact Or.inl ⟨hnone, hhome⟩
  · rintro e s₁ ⟨hsame, c, hsome, -⟩
    have hfailed : failure.isSome = true := Option.isSome_of_eq_some hsome
    exact Or.inr ⟨hfailed, hsame.directory⟩

/-- From the directory it is in R moves back, unless a call before that fails:
then it stays. -/
theorem scratchSweave_directory {tmpDir : String} (hdir : IsTemporary tmpDir)
    (filePath srcPath baseName : String) (command : JsonCommand)
    {s : RSession (σ × String) ν} {away : String}
    (haway : s.directory = away) {failure : Option Failure}
    (hfailure : (svc.inDirectory moves).firstFailure (sweaveFile filePath ::
      texCalls (svc.inDirectory moves) srcPath (append tmpDir ".rc2sw") baseName
        s.tmpDir ((svc.inDirectory moves).effect (sweaveFile filePath) s.outer)) =
          failure) :
    let moved : RSession (σ × String) ν → Prop := fun s' =>
      failure = none ∧ (s'.directory =
          if moves (changeDirectory tmpDir) then tmpDir else away) ∨
        failure.isSome = true ∧ s'.directory = away
    Act.wp (do
      let returned ← catchRuntimeError
        (do
          call (svc.inDirectory moves) (sweaveFile filePath)
          pure true)
        fun _ => do
          sendOutputBufferToClient true
          scheduleExecCompleteAcknowledgmenet command noFile
          pure false
      if returned then
        finishSweave (svc.inDirectory moves) srcPath (append tmpDir ".rc2sw")
          baseName command)
      (fun _ => moved) (fun _ => moved) s := by
  intro moved
  have hsweave := (called_sameDirectory svc moves (c := sweaveFile filePath)
    (sweaveFile_setwd filePath) s).directory.trans haway
  rw [Act.wp_bind, wp_catchRuntimeError]
  apply call_rule
  · intro e hthrows
    have hfailed : failure.isSome = true := Option.isSome_of_eq_some
      (hfailure.symm.trans (Services.firstFailure_cons_of_some hthrows))
    split
    next hruntime =>
      -- the handler returns without the way back
      rw [Act.wp_bind, wp_sendOutputBufferToClient, Act.wp_bind,
        wp_scheduleExecComplete]
      exact Or.inr ⟨hfailed, hsweave⟩
    next hother => exact Or.inr ⟨hfailed, hsweave⟩
  intro hswept
  rw [Services.firstFailure_cons_of_none hswept] at hfailure
  have hfinish := finishSweave_directory svc moves hdir srcPath baseName command
    (s.called (svc.inDirectory moves) (sweaveFile filePath))
  rw [hsweave] at hfinish
  rw [Act.wp_pure, if_pos rfl]
  refine hfinish.mono ?_ ?_
  · rintro _ s' ⟨hnone, hback⟩
    exact Or.inl ⟨hfailure.symm.trans hnone, hback⟩
  · rintro e s' (⟨hnone, hback⟩ | ⟨hsome, hstays⟩)
    · exact Or.inl ⟨hfailure.symm.trans hnone, hback⟩
    · exact Or.inr ⟨hfailure ▸ hsome, hstays⟩

/-- What has to return for R to be back after a Sweave file. -/
def bracketCalls (svc : Services σ ν) (filePath tmpDir : String)
    (outer : σ) : List Call :=
  let srcPath := append tmpDir filePath
  let scratchPath := append tmpDir ".rc2sw"
  changeDirectory scratchPath :: sweaveFile filePath ::
    texCalls svc srcPath scratchPath (stem srcPath) tmpDir
      (svc.after (scratchCalls scratchPath ++ [sweaveFile filePath]) outer)

/-- R is back once everything between the two moves has returned and the way
back has not failed, or when it has not moved. -/
theorem executeSweave_directory (filePath : String) (command : JsonCommand)
    {s : RSession (σ × String) ν} (hdir : IsTemporary s.tmpDir)
    (hcwd : s.directory = s.tmpDir) :
    let restored : Prop :=
      (svc.inDirectory moves).throws
        (.createDirectories (append s.tmpDir ".rc2sw")) = none →
      moves (changeDirectory (append s.tmpDir ".rc2sw")) = true →
      (svc.inDirectory moves).firstFailure
        (bracketCalls (svc.inDirectory moves) filePath s.tmpDir s.outer) =
          none ∧
      moves (changeDirectory s.tmpDir) = true
    Act.wp (executeSweave (svc.inDirectory moves) filePath command)
      (fun _ s' => s'.directory = s.tmpDir ↔ restored)
      (fun _ s' => s'.directory = s.tmpDir ↔ restored) s := by
  intro restored
  have hcreate := called_sameDirectory svc moves
    (c := .createDirectories (append s.tmpDir ".rc2sw")) rfl s
  rw [executeSweave, Act.wp_bind, Act.wp_get]
  apply call_rule
  · intro e hthrows
    apply iff_of_true (hcreate.directory.trans hcwd)
    intro hnone
    rw [hthrows] at hnone
    cases hnone
  intro hcreated
  have henter := called_directory svc moves
    (c := changeDirectory (append s.tmpDir ".rc2sw"))
    (changeDirectory_setwd hdir.scratch_plainText)
    (s.called (svc.inDirectory moves)
      (.createDirectories (append s.tmpDir ".rc2sw")))
  rw [hcreate.directory.trans hcwd] at henter
  obtain ⟨failure, hfailure⟩ : ∃ failure,
      (svc.inDirectory moves).firstFailure (bracketCalls
        (svc.inDirectory moves) filePath s.tmpDir s.outer) = failure :=
    ⟨_, rfl⟩
  have hend : ∀ s' : RSession (σ × String) ν,
      (failure = none ∧ (s'.directory =
          if moves (changeDirectory s.tmpDir) then s.tmpDir
          else if moves (changeDirectory (append s.tmpDir ".rc2sw")) then
            append s.tmpDir ".rc2sw" else s.tmpDir) ∨
        failure.isSome = true ∧ s'.directory =
          if moves (changeDirectory (append s.tmpDir ".rc2sw")) then
            append s.tmpDir ".rc2sw" else s.tmpDir) →
      (s'.directory = s.tmpDir ↔ restored) := by
    intro s' h
    rw [← hfailure] at h
    exact (home_iff hdir.scratch_ne h).trans
      ⟨fun h _ => h, fun h => h hcreated⟩
  apply call_rule
  · intro e hthrows
    have hfailed : failure = some ⟨_, e⟩ :=
      hfailure.symm.trans (Services.firstFailure_cons_of_some hthrows)
    exact hend _ (Or.inr ⟨Option.isSome_of_eq_some hfailed, henter⟩)
  intro hentered
  have hscratch := scratchSweave_directory svc moves hdir filePath
    (append s.tmpDir filePath) (stem (append s.tmpDir filePath)) command henter
    ((Services.firstFailure_cons_of_none hentered).symm.trans hfailure)
  exact hscratch.mono (fun _ => hend) fun _ => hend

theorem executeSource_directory (fpath : String) (command : JsonCommand) :
    Act.Moves SameDirectory
      (executeSource (svc.inDirectory moves) fpath command) := by
  apply (Act.Moves.modify fun _ => ⟨rfl, rfl⟩).bind
  intro _
  apply (call_sameDirectory svc moves (c := sourceFile fpath)
    (sourceFile_setwd fpath)).bind
  intro _
  apply (flushOutputBuffer_sameDirectory svc moves).bind
  intro _
  apply (Act.Moves.modify fun _ => ⟨rfl, rfl⟩).bind
  intro _
  apply (Act.Moves.get.bind fun _ => Act.Moves.modify fun _ =>
    ⟨rfl, rfl⟩).bind
  intro _
  apply Act.Moves.get.bind
  intro s
  exact Act.Moves.ite (Act.Moves.modify fun _ => ⟨rfl, rfl⟩)
    (Act.Moves.pure _)

/-- When R is back after a file has been run: if it has moved away, nothing has
thrown between the moves, and the move back has not failed. -/
def RestoresDirectory (svc : Services σ ν) (moves : Call → Bool)
    (fpath tmpDir : String) (outer : σ) : Prop :=
  match fileKind fpath with
  | .markdown =>
      svc.firstFailure (copyCalls svc fpath tmpDir) = none →
        moves (renderFile fpath (temporaryPath svc)) = true →
          svc.firstFailure (runCalls svc fpath tmpDir outer) = none ∧
            moves (resetDirectory tmpDir) = true
  | .sweave =>
      svc.throws (.createDirectories (append tmpDir ".rc2sw")) = none →
        moves (changeDirectory (append tmpDir ".rc2sw")) = true →
          svc.firstFailure (bracketCalls svc fpath tmpDir outer) = none ∧
            moves (changeDirectory tmpDir) = true
  | .source | .unsupported => True

/-- The directory of a session, and the ones of its R Markdown files. -/
structure InSession (svc : Services σ ν) (s : RSession (σ × String) ν) :
    Prop where
  temporary : IsTemporary s.tmpDir
  uuid : IsUUID svc.generateUUID
  /-- `mkdir` makes directories that are not there. -/
  fresh : temporaryPath svc ≠ s.tmpDir
  directory : s.directory = s.tmpDir

theorem executeByExtension_directory (fpath : String) (command : JsonCommand)
    {s : RSession (σ × String) ν} (hs : InSession svc s) :
    Act.wp (executeByExtension (svc.inDirectory moves) fpath command)
      (fun _ s' => s'.directory = s.tmpDir ↔
        RestoresDirectory (svc.inDirectory moves) moves fpath s.tmpDir s.outer)
      (fun _ s' => s'.directory = s.tmpDir ↔
        RestoresDirectory (svc.inDirectory moves) moves fpath s.tmpDir s.outer)
      s := by
  have hstays : ∀ {x : Handler (σ × String) ν Unit},
      Act.Moves SameDirectory x → Act.wp x
        (fun _ s' => s'.directory = s.tmpDir ↔ True)
        (fun _ s' => s'.directory = s.tmpDir ↔ True) s := by
    intro x hx
    exact (wp_of_sameDirectory hx hs.directory).mono
      (fun _ _ h => iff_true_intro h.1) fun _ _ h => iff_true_intro h.1
  have htmp : PlainText (temporaryPath svc) :=
    PlainText.append (by decide) hs.uuid.plainText
  rw [executeByExtension, Act.wp_bind, Act.wp_get]
  unfold RestoresDirectory
  beta_reduce
  split
  next hmarkdown =>
    have hkind : fileKind fpath = .markdown := if_pos hmarkdown
    rw [hkind]
    exact executeRMarkdown_directory svc moves fpath command
      hs.temporary.plainText htmp hs.fresh hs.directory
  next hmarkdown =>
  split
  next hsweave =>
    have hkind : fileKind fpath = .sweave := by
      rw [fileKind, if_neg hmarkdown, if_pos hsweave]
    rw [hkind]
    exact executeSweave_directory svc moves fpath command hs.temporary
      hs.directory
  next hsweave =>
  split
  next hsource =>
    have hkind : fileKind fpath = .source := by
      rw [fileKind, if_neg hmarkdown, if_neg hsweave, if_pos hsource]
    rw [hkind]
    exact hstays (executeSource_directory svc moves fpath command)
  next hsource =>
    have hkind : fileKind fpath = .unsupported := by
      rw [fileKind, if_neg hmarkdown, if_neg hsweave, if_neg hsource]
    rw [hkind]
    exact hstays (Act.Moves.modify fun _ => ⟨rfl, rfl⟩)

/-- When R is back after an `execFile` command. -/
def CommandRestores (command : JsonCommand) (s : RSession (σ × String) ν) :
    Prop :=
  ∀ fpath ∈ commandFile (svc.inDirectory moves) command s,
    (svc.inDirectory moves).firstFailure
      (Services.callsIf s.watchVariables .captureEnvironment) = none →
    RestoresDirectory (svc.inDirectory moves) moves fpath s.tmpDir
      (fileOuter (svc.inDirectory moves) s)

theorem executeKnownFile_directory {fpath : String} (command : JsonCommand)
    {s : RSession (σ × String) ν} (hs : InSession svc s) :
    let restored : Prop := (svc.inDirectory moves).firstFailure
        (Services.callsIf s.watchVariables .captureEnvironment) = none →
      RestoresDirectory (svc.inDirectory moves) moves fpath s.tmpDir
        (fileOuter (svc.inDirectory moves) s)
    Act.wp (executeKnownFile (svc.inDirectory moves) fpath command)
      (fun _ s' => s'.directory = s.tmpDir ↔ restored)
      (fun _ s' => s'.directory = s.tmpDir ↔ restored) s := by
  intro restored
  have hcapture := called_sameDirectory svc moves (c := .captureEnvironment)
    rfl (s.moving (svc.inDirectory moves).resetWatch)
  rw [executeKnownFile, Act.wp_bind, Act.wp_modify, Act.wp_bind, Act.wp_get]
  apply callIf_rule
  · intro e hthrows
    have hfailed : (svc.inDirectory moves).firstFailure
        (Services.callsIf s.watchVariables .captureEnvironment) =
          some ⟨some .captureEnvironment, e⟩ :=
      Services.firstFailure_callsIf_singleton_of_some hthrows
    apply iff_of_true (hcapture.directory.trans hs.directory)
    intro hnone
    rw [hfailed] at hnone
    cases hnone
  intro hcaptured
  have hnone : (svc.inDirectory moves).firstFailure
      (Services.callsIf s.watchVariables .captureEnvironment) = none :=
    Services.firstFailure_callsIf_singleton_of_none hcaptured
  have hstart : InSession svc
      ((s.moving (svc.inDirectory moves).resetWatch).calledIf
        (svc.inDirectory moves) s.watchVariables .captureEnvironment) := by
    refine ⟨?_, hs.uuid, ?_, ?_⟩
    · rw [RSession.calledIf_tmpDir]
      exact hs.temporary
    · rw [RSession.calledIf_tmpDir]
      exact hs.fresh
    · rw [RSession.calledIf_tmpDir, RSession.calledIf]
      split
      · exact hcapture.directory.trans hs.directory
      · exact hs.directory
  have houter : ((s.moving (svc.inDirectory moves).resetWatch).calledIf
      (svc.inDirectory moves) s.watchVariables .captureEnvironment).outer =
        fileOuter (svc.inDirectory moves) s := by
    simp [fileOuter]
  have hfile := executeByExtension_directory svc moves fpath command hstart
  simp only [RSession.calledIf_tmpDir, RSession.moving_tmpDir, houter]
    at hfile
  refine hfile.mono ?_ ?_
  · intro _ s' hiff
    exact hiff.trans ⟨fun h _ => h, fun h => h hnone⟩
  · intro _ s' hiff
    exact hiff.trans ⟨fun h _ => h, fun h => h hnone⟩

theorem executeFile_directory (command : JsonCommand)
    {s : RSession (σ × String) ν} (hs : InSession svc s) :
    Act.wp (executeFile (svc.inDirectory moves) command)
      (fun _ s' => s'.directory = s.tmpDir ↔ CommandRestores svc moves command s)
      (fun _ s' => s'.directory = s.tmpDir ↔ CommandRestores svc moves command s)
      s := by
  have hunknown : commandFile (svc.inDirectory moves) command s = none →
      CommandRestores svc moves command s := by
    intro hnone fpath hfpath
    rw [hnone] at hfpath
    cases hfpath
  rw [executeFile]
  apply read_rule
  · intro e harg
    apply iff_of_true hs.directory
    apply hunknown
    rw [commandFile, harg]
  intro argument harg
  have hfile : commandFile (svc.inDirectory moves) command s =
      (svc.inDirectory moves).filePathForId s.outer (atol argument.toList) := by
    rw [commandFile, harg]
  rw [Act.wp_bind, Act.wp_get]
  beta_reduce
  cases hpath : (svc.inDirectory moves).filePathForId s.outer
      (atol argument.toList) with
  | none =>
      have hnone := hunknown (hfile.trans hpath)
      exact iff_of_true hs.directory hnone
  | some fpath =>
      have honly : CommandRestores svc moves command s ↔
          ((svc.inDirectory moves).firstFailure (Services.callsIf s.watchVariables
            .captureEnvironment) = none →
          RestoresDirectory (svc.inDirectory moves) moves fpath s.tmpDir
            (fileOuter (svc.inDirectory moves) s)) := by
        rw [CommandRestores, hfile, hpath]
        simp only [Option.mem_some_iff, forall_eq']
      refine (executeKnownFile_directory svc moves command hs).mono ?_ ?_
      · intro _ s' hiff
        exact hiff.trans honly.symm
      · intro _ s' hiff
        exact hiff.trans honly.symm

/-- A file leaves R in the directory of the session exactly when R has not left
it, or nothing has thrown while R was away and its way back has not failed. -/
theorem directory_restored_iff (command : JsonCommand)
    (s : RSession (σ × String) ν) (hs : InSession svc s) :
    (executeFile (svc.inDirectory moves) command s).2.directory = s.tmpDir ↔
      CommandRestores svc moves command s :=
  (executeFile_directory svc moves command hs).final

end Handlers

/-! ## A Sweave file that stops -/

/-- A session in its directory, as R is. -/
def sessionInTmp : RSession (Unit × String) Unit :=
  (RSession.fresh ((), "/tmp/4b5c-01")).movingTo "/tmp/4b5c-01"

/-- The command to run the file with the number 1. -/
def runFile : JsonCommand where
  cmd := .object [("argument", .string "1")]
  type := .ExecFile

/-- Services that know one file, and throw what `throws` says. -/
def oneFile (fpath : String) (throws : Call → Option CxxException) :
    Services Unit Unit :=
  { Services.succeeding () with
    throws := throws
    generateUUID := "4b5c-02"
    filePathForId := fun _ _ => some fpath }

theorem inSession_oneFile (fpath : String)
    (throws : Call → Option CxxException) :
    InSession (oneFile fpath throws) sessionInTmp := by
  have huuid : IsUUID "4b5c-02" := by decide
  have hfresh : "/tmp/" ++ "4b5c-02" ≠ "/tmp/4b5c-01" := by decide
  exact ⟨⟨"4b5c-01", by decide, rfl⟩, huuid, hfresh, rfl⟩

/-- Every `setwd` succeeds. -/
def alwaysMoves (_ : Call) : Bool :=
  true

theorem commandRestores_rendered :
    CommandRestores (oneFile "report.Rmd" fun _ => none) alwaysMoves runFile
      sessionInTmp := by
  intro fpath hfpath _
  obtain rfl : "report.Rmd" = fpath := Option.some.inj hfpath
  intro _ _
  exact ⟨List.findSome?_eq_none_iff.mpr fun _ _ => rfl, rfl⟩

theorem directory_restored_iff_rendered :
    (executeFile ((oneFile "report.Rmd" fun _ => none).inDirectory alwaysMoves)
      runFile sessionInTmp).2.directory = sessionInTmp.tmpDir :=
  (directory_restored_iff _ alwaysMoves runFile sessionInTmp
    (inSession_oneFile "report.Rmd" fun _ => none)).mpr
    commandRestores_rendered

/-- `stop()` in the R code of a Sweave file. -/
def stopsInSweave (c : Call) : Option CxxException :=
  if c = sweaveFile "report.Rnw" then
    some ⟨.runtimeError, "Error in Sweave"⟩
  else none

theorem directory_restored_fails_on_stop :
    sessionInTmp.directory = sessionInTmp.tmpDir ∧
    (executeFile ((oneFile "report.Rnw" stopsInSweave).inDirectory alwaysMoves)
      runFile sessionInTmp).2.directory ≠ sessionInTmp.tmpDir := by
  decide +kernel

end Rc2Compute.Session
