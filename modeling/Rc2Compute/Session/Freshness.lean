import Rc2Compute.Session.Correlation
import Rc2Compute.Support.Provenance

/-!
# Where shown output comes from

R Markdown and Sweave files are run in directories that outlive the run: the
scratch directory of Sweave, and the working directory the output is copied
to.  The files here carry the run that produced them.  `Output.Fresh` says
that the output a run shows was produced by that run.
-/

namespace Rc2Compute.Session

open Files (FileInfo)

variable {σ ν : Type}

/-! ## Paths -/

/-- The directory, as it begins the paths of its entries. -/
def within (directory path : String) : Bool :=
  (append directory "").toList.isPrefixOf path.toList

theorem within_append {directory : String} (h : directory ≠ "")
    (component : String) :
    within directory (append directory component) = true := by
  rw [within, List.isPrefixOf_iff_prefix]
  by_cases hslash : directory.toList.getLast? = some '/'
  · simp [append, hslash]
  · by_cases hhead : component.toList.head? = some '/'
    · obtain ⟨rest, hrest⟩ := List.head?_eq_some_iff.mp hhead
      simp [append, hslash, h, hrest]
    · simp [append, hslash, hhead, h]

theorem getLast_append {component : String} {c : Char}
    (h : component.toList.getLast? = some c) (directory : String) :
    (append directory component).toList.getLast? = some c := by
  have hcomponent : component.toList ≠ [] := by
    intro hnil
    rw [hnil] at h
    cases h
  rw [append]
  split
  · rw [String.toList_append, List.getLast?_append, h, Option.some_or]
  · rw [String.toList_append, List.getLast?_append, h, Option.some_or]

/-- A path ends as its extension does. -/
theorem getLast_of_extension {path : String} (base : List Char) {c : Char}
    (h : extension path = String.ofList ('.' :: (base ++ [c]))) :
    path.toList.getLast? = some c := by
  rw [extension] at h
  split at h
  next => simp at h
  next hproper =>
    have hfile : filename path ≠ ['.'] := fun hdot => hproper (Or.inl hdot)
    have hname : filename path =
        (path.toList.reverse.takeWhile (· ≠ '/')).reverse := by
      rw [filename] at hfile ⊢
      split at hfile
      · exact absurd rfl hfile
      next hslash => exact if_neg hslash
    have hlast := List.cons.inj (String.ofList_injective h)
    rw [hname, List.reverse_reverse] at hlast
    have hbase := List.takeWhile_prefix (p := fun x => decide (x ≠ '.'))
      (l := path.toList.reverse.takeWhile (· ≠ '/'))
    rw [← List.reverse_reverse (List.takeWhile _ (List.takeWhile _ _)),
      hlast.2, List.reverse_append] at hbase
    obtain ⟨rest, hrest⟩ := hbase.trans (List.takeWhile_prefix _)
    rw [← List.head?_reverse, ← hrest]
    rfl

/-! ## Services over files -/

/-- What the services do while one callback runs: what fails and what is
returned, what R and the other calls do to the files, and what `texi2pdf`
does. -/
structure Tools (ν : Type) where
  services : Services Unit ν
  changes : Call → String → Change
  texi2pdf : String → Change

/-- The file a call copies another one to. -/
def Call.dest : Call → Option String
  | .copyFile _ dest => some dest
  | _ => none

namespace Tools

/-- What a call does to the files.  A test or a new directory changes none,
and a temporary directory is empty. -/
def effect (tools : Tools ν) (c : Call) (fs : FileSystem String) :
    FileSystem String :=
  match c with
  | .copyFile source dest => fs.copy source dest
  | .temporaryDirectory path => fs.clear (within path)
  | .texi2pdf _ => fs.change tools.texi2pdf
  | .pathExists _ | .makeDirectoryPath _ | .createDirectories _ => fs
  | c => fs.change (tools.changes c)

/-- The services, with the files behind them. -/
def onFiles (tools : Tools ν) : Services (FileSystem String) ν where
  throws := tools.services.throws
  output := tools.services.output
  output_eq_nil := tools.services.output_eq_nil
  effect := tools.effect
  holds c fs :=
    match c with
    | .pathExists path => (fs.files path).isSome
    | c => tools.services.holds c ()
  parseResult := tools.services.parseResult
  helpPaths := tools.services.helpPaths
  generateUUID := tools.services.generateUUID
  summarises := tools.services.summarises
  toJson _ := tools.services.toJson ()
  toJsonOf _ := tools.services.toJsonOf ()
  jsonDelta _ := tools.services.jsonDelta ()
  sizePositive path fs :=
    match fs.files path with
    | some file => !file.empty
    | none => true
  copySends texPath _ := tools.services.copySends texPath ()
  filePathForId _ := tools.services.filePathForId ()
  fileInfoForId _ := tools.services.fileInfoForId ()
  foundFile _ := tools.services.foundFile ()
  resetWatch := id
  checkWatch _ := tools.services.checkWatch ()
  uninitialised := tools.services.uninitialised

variable {tools : Tools ν} {fs : FileSystem String} {path : String}

/-- A call keeps what is current, unless it copies a file over it. -/
theorem current_effect (c : Call) (h : fs.Current path)
    (hc : c.dest ≠ some path) : (tools.effect c fs).Current path := by
  unfold effect
  split
  next source dest =>
    apply h.copy_of_ne source
    intro hpath
    exact hc (by rw [hpath, Call.dest])
  next directory => exact h.clear _
  next => exact h.change _
  next => exact h
  next => exact h
  next => exact h
  next => exact h.change _

/-- A file that is found and has a size. -/
theorem current_of_isGenerated (h : fs.CurrentOrEmpty path)
    (hgenerated : tools.onFiles.isGenerated path fs = true) :
    fs.Current path ∧ (fs.files path).isSome = true := by
  rw [Services.isGenerated, Bool.and_eq_true] at hgenerated
  obtain ⟨hexists, hsize⟩ := hgenerated
  obtain ⟨file, hfile⟩ := Option.isSome_iff_exists.mp hexists
  refine ⟨h.current hfile ?_, hexists⟩
  have heffect : tools.onFiles.effect (.pathExists path) fs = fs := rfl
  rw [heffect] at hsize
  simpa [onFiles, hfile] using hsize

end Tools

section Current

variable (tools : Tools ν) {s : RSession (FileSystem String) ν} {path : String}

theorem current_called (c : Call) (h : s.outer.Current path)
    (hc : c.dest ≠ some path) :
    (s.called tools.onFiles c).outer.Current path :=
  Tools.current_effect c h hc

theorem current_flushed (h : s.outer.Current path) :
    (s.flushed tools.onFiles).outer.Current path := by
  have hsaved : ((s.ignoring true).called tools.onFiles pngoff).outer.Current
      path := current_called tools pngoff h (by simp [pngoff, Call.dest])
  exact hsaved

/-- A copy of a current file. -/
theorem current_copied {source : String} (h : s.outer.Current source)
    (hsource : (s.outer.files source).isSome = true) (path : String) :
    (s.called tools.onFiles (.copyFile source path)).outer.Current path :=
  h.copy hsource path

end Current

/-! ## Announced output -/

/-- The acknowledgements that announce output. -/
def Deferred.showsOutput : Deferred → Bool
  | .execComplete _ _ finfo => decide (finfo.id > 0)
  | .command _ => false

/-- What the queue announces was produced by the current run. -/
def AnnouncesFresh (path : String) (s : RSession (FileSystem String) ν) :
    Prop :=
  ∀ event ∈ s.deferred, event.showsOutput = true → s.outer.Current path

section AnnouncesFresh

variable {path : String} {s : RSession (FileSystem String) ν}

theorem announcesFresh_of_nil (h : s.deferred = []) :
    AnnouncesFresh path s := by
  intro event hevent
  rw [h] at hevent
  cases hevent

theorem announcesFresh_of_current (h : s.outer.Current path) :
    AnnouncesFresh path s :=
  fun _ _ _ => h

/-- One acknowledgement in an empty queue. -/
theorem announcesFresh_scheduling {command : JsonCommand} {queryId : ℤ}
    {finfo : FileInfo} (h : s.deferred = [])
    (hcurrent : finfo.id > 0 → s.outer.Current path) :
    AnnouncesFresh path (s.scheduling (.execComplete command queryId finfo)) := by
  intro event hevent hshows
  rw [RSession.scheduling_deferred, h, List.nil_append,
    List.mem_singleton] at hevent
  rw [hevent] at hshows
  exact hcurrent (by simpa [Deferred.showsOutput] using hshows)

end AnnouncesFresh

/-! ## R Markdown files -/

section Markdown

variable {tools : Tools ν} {s : RSession (FileSystem String) ν}

/-- The copy of an R Markdown file is not the HTML file made of it. -/
theorem append_htmlName_ne {fileName directory : String}
    (h : extension fileName = ".Rmd") :
    append directory (htmlName fileName) ≠ append directory fileName := by
  intro heq
  have hfile : fileName.toList.getLast? = some 'd' :=
    getLast_of_extension ['R', 'm'] h
  have hhtml : (htmlName fileName).toList.getLast? = some 'l' := by
    simp [htmlName]
  have hleft := getLast_append hhtml directory
  rw [heq, getLast_append hfile directory] at hleft
  cases hleft

theorem renderMarkdown_fresh {fileName tmp htmlPath : String}
    (hs : s.deferred = [])
    (hcurrent : s.outer.Current (append tmp (htmlName fileName))) :
    Act.wp (renderMarkdown tools.onFiles fileName tmp htmlPath)
      (fun rendered s' => s'.deferred = [] ∧ s'.tmpDir = s.tmpDir ∧
        (rendered = true → s'.outer.Current htmlPath))
      (fun _ s' => s'.deferred = []) s := by
  rw [renderMarkdown, wp_ignoringOutput, Act.wp_bind, Act.wp_modify]
  have hrender : (((s.ignoring true).capturing true).called tools.onFiles
      (renderFile fileName tmp)).outer.Current
        (append tmp (htmlName fileName)) :=
    current_called tools _ hcurrent (by simp [renderFile, Call.dest])
  apply call_rule
  · intro _ _
    simpa using hs
  intro _
  rw [Act.wp_bind, Act.wp_modify]
  have hflush := current_flushed tools
    (s := RSession.capturing false (((s.ignoring true).capturing true).called
      tools.onFiles (renderFile fileName tmp))) hrender
  apply flush_rule
  · intro _ _
    simpa using hs
  intro _
  apply test_rule
  · intro _ _
    simpa using hs
  intro _
  split
  next hexists =>
    have hcopied := current_copied tools hflush hexists htmlPath
    apply call_rule
    · intro _ _
      simpa using hs
    intro _
    exact ⟨by simpa using hs, by simp, fun _ => hcopied⟩
  next => exact ⟨by simpa using hs, by simp, fun h => by cases h⟩

theorem reportMarkdown_fresh {fileName : String} {rendered : Bool}
    {command : JsonCommand} {path : String} (hs : s.deferred = [])
    (hrendered : rendered = true → s.outer.Current path) :
    Act.wp (reportMarkdown tools.onFiles fileName rendered command)
      (fun _ => AnnouncesFresh path) (fun _ => AnnouncesFresh path) s := by
  rw [reportMarkdown, Act.wp_bind, Act.wp_get]
  apply call_rule
  · intro _ _
    exact announcesFresh_of_nil (by simpa using hs)
  intro _
  apply generated_rule
  · intro _ _
    exact announcesFresh_of_nil (by simpa using hs)
  intro _
  split
  next hreports =>
    rw [Bool.and_eq_true] at hreports
    have hreset := current_called tools (resetDirectory s.tmpDir)
      (hrendered hreports.1) (by simp [resetDirectory, Call.dest])
    rw [wp_ignoringOutput]
    apply findOrAddFile_rule
    · intro _ _
      exact announcesFresh_of_nil (by simpa using hs)
    intro _
    rw [wp_scheduleExecComplete]
    have hfound := current_called tools
      (.pathExists (append s.tmpDir (htmlName fileName))) hreset
      (by simp [Call.dest])
    have hadded := current_called tools (.findOrAddFile (htmlName fileName))
      hfound (by simp [Call.dest])
    exact announcesFresh_of_current hadded
  next =>
    rw [Act.wp_bind, Act.wp_get]
    beta_reduce
    rw [wp_sendJsonToClientSource]
    exact announcesFresh_of_nil (by simpa using hs)

/-- The HTML file is made in a directory of the run. -/
theorem executeRMarkdown_fresh {fileName : String} {command : JsonCommand}
    (hfile : extension fileName = ".Rmd") (hs : s.deferred = []) :
    Act.wp (executeRMarkdown tools.onFiles fileName command)
      (fun _ => AnnouncesFresh (append s.tmpDir (htmlName fileName)))
      (fun _ => AnnouncesFresh (append s.tmpDir (htmlName fileName))) s := by
  rw [executeRMarkdown, Act.wp_bind, Act.wp_get]
  have htmp : temporaryPath tools.onFiles ≠ "" := by
    intro hempty
    have hlength := congrArg String.length hempty
    simp [temporaryPath] at hlength
  have hcleared : (s.called tools.onFiles
      (.temporaryDirectory (temporaryPath tools.onFiles))).outer.Current
        (append (temporaryPath tools.onFiles) (htmlName fileName)) :=
    FileSystem.current_clear (within_append htmp _)
  have hcopied := current_called tools (.copyFile (append s.tmpDir fileName)
    (append (temporaryPath tools.onFiles) fileName)) hcleared
    (by simpa [Call.dest] using (append_htmlName_ne hfile).symm)
  apply call_rule
  · intro _ _
    exact announcesFresh_of_nil (by simpa using hs)
  intro _
  apply call_rule
  · intro _ _
    exact announcesFresh_of_nil (by simpa using hs)
  intro _
  rw [Act.wp_bind]
  refine (renderMarkdown_fresh (by simpa using hs) hcopied).mono ?_ ?_
  · rintro rendered s' ⟨hdeferred, -, hrendered⟩
    exact reportMarkdown_fresh hdeferred hrendered
  · exact fun _ _ hdeferred => announcesFresh_of_nil hdeferred

end Markdown

/-! ## Sweave files -/

/-- The scratch directory of Sweave. -/
def scratchDirectory (tmpDir : String) : String :=
  append tmpDir ".rc2sw"

/-- The PDF file a Sweave file is made into, without its directory. -/
def pdfName (fpath tmpDir : String) : String :=
  stem (append tmpDir fpath) ++ ".pdf"

/-- The PDF file in the scratch directory. -/
def scratchPdf (fpath tmpDir : String) : String :=
  append (scratchDirectory tmpDir) (pdfName fpath tmpDir)

/-- The LaTeX file `Sweave` makes. -/
def scratchTex (fpath tmpDir : String) : String :=
  append (scratchDirectory tmpDir) (stem (append tmpDir fpath) ++ ".tex")

section Sweave

variable (tools : Tools ν)

/-- The files when `Sweave` has returned. -/
def sweaveOuter (fpath tmpDir : String) (fs : FileSystem String) :
    FileSystem String :=
  fs.changeAll [tools.changes (changeDirectory (scratchDirectory tmpDir)),
    tools.changes (sweaveFile fpath)]

/-- `texi2pdf` has something to run on, and the file manager will report what
it makes. -/
structure CollectsPdf (fpath tmpDir : String) (fs : FileSystem String) :
    Prop where
  sweave : tools.services.throws (sweaveFile fpath) = none
  tex : ((sweaveOuter tools fpath tmpDir fs).files
    (scratchTex fpath tmpDir)).isSome = true
  found : (tools.services.foundFile () (pdfName fpath tmpDir)).id > 0

/-- No PDF file of an earlier run is left in the scratch directory: there is
none with a size when the run begins, or the run writes or removes it. -/
def PdfRenewed (fpath tmpDir : String) (fs : FileSystem String) : Prop :=
  fs.Blank (scratchPdf fpath tmpDir) ∨
    ∃ changes ∈ [tools.changes (changeDirectory (scratchDirectory tmpDir)),
      tools.changes (sweaveFile fpath), tools.texi2pdf],
      changes (scratchPdf fpath tmpDir) ≠ .keep

variable {tools} {s : RSession (FileSystem String) ν}

theorem PdfRenewed.currentOrEmpty {fpath tmpDir : String}
    {fs : FileSystem String} (h : PdfRenewed tools fpath tmpDir fs) :
    ((sweaveOuter tools fpath tmpDir fs).change tools.texi2pdf).CurrentOrEmpty
      (scratchPdf fpath tmpDir) := by
  have hall := FileSystem.currentOrEmpty_changeAll
    (h.imp_left FileSystem.Blank.currentOrEmpty)
  exact hall

theorem collectPdf_fresh {srcPath scratchPath baseName : String}
    (hs : s.deferred = [])
    (hpdf : (tools.services.foundFile () (baseName ++ ".pdf")).id > 0 →
      (s.outer.change tools.texi2pdf).CurrentOrEmpty
        (append scratchPath (baseName ++ ".pdf"))) :
    Act.wp (collectPdf tools.onFiles srcPath scratchPath baseName)
      (fun finfo s' => s'.deferred = [] ∧ (finfo.id > 0 →
        s'.outer.Current (append s.tmpDir (baseName ++ ".pdf"))))
      (fun _ s' => s'.deferred = []) s := by
  rw [collectPdf, Act.wp_bind, Act.wp_get]
  beta_reduce
  rw [Act.wp_bind, Act.wp_modify]
  apply forkTexi2pdf_rule
  · intro _ _
    simpa using hs
  intro _
  rw [Act.wp_bind, Act.wp_modify]
  apply generated_rule
  · intro _ _
    simpa using hs
  intro _
  split
  next hgenerated =>
    apply call_rule
    · intro _ _
      simpa using hs
    intro _
    rw [wp_findOrAddFile]
    split
    next =>
      refine ⟨by simpa using hs, fun hfound => ?_⟩
      obtain ⟨hcurrent, hexists⟩ :=
        Tools.current_of_isGenerated (hpdf hfound) hgenerated
      have hcopied := hcurrent.copy hexists
        (append s.tmpDir (baseName ++ ".pdf"))
      exact Tools.current_effect (.findOrAddFile (baseName ++ ".pdf")) hcopied
        (by simp [Call.dest])
    next => simpa using hs
  next =>
    apply test_rule
    · intro _ _
      simpa using hs
    intro _
    split
    next =>
      apply call_rule
      · intro _ _
        simpa using hs
      intro _
      exact ⟨by simpa using hs, fun hfound => absurd hfound (by decide)⟩
    next => exact ⟨by simpa using hs, fun hfound => absurd hfound (by decide)⟩

theorem collectTex_fresh {srcPath scratchPath baseName : String}
    (hs : s.deferred = [])
    (hpdf : (s.outer.files (append scratchPath (baseName ++ ".tex"))).isSome =
        true → (tools.services.foundFile () (baseName ++ ".pdf")).id > 0 →
      (s.outer.change tools.texi2pdf).CurrentOrEmpty
        (append scratchPath (baseName ++ ".pdf"))) :
    Act.wp (collectTex tools.onFiles srcPath scratchPath baseName)
      (fun finfo s' => s'.deferred = [] ∧ (finfo.id > 0 →
        s'.outer.Current (append s.tmpDir (baseName ++ ".pdf"))))
      (fun _ s' => s'.deferred = []) s := by
  rw [collectTex]
  apply test_rule
  · intro _ _
    simpa using hs
  intro _
  split
  next hexists =>
    exact collectPdf_fresh (s := s.called tools.onFiles _) (by simpa using hs)
      (hpdf hexists)
  next => exact ⟨by simpa using hs, fun hfound => absurd hfound (by decide)⟩

theorem finishSweave_fresh (srcPath : String) {scratchPath baseName : String}
    (command : JsonCommand) (hs : s.deferred = [])
    (hpdf : (s.outer.files (append scratchPath (baseName ++ ".tex"))).isSome =
        true → (tools.services.foundFile () (baseName ++ ".pdf")).id > 0 →
      (s.outer.change tools.texi2pdf).CurrentOrEmpty
        (append scratchPath (baseName ++ ".pdf"))) :
    Act.wp (finishSweave tools.onFiles srcPath scratchPath baseName command)
      (fun _ => AnnouncesFresh (append s.tmpDir (baseName ++ ".pdf")))
      (fun _ => AnnouncesFresh (append s.tmpDir (baseName ++ ".pdf"))) s := by
  rw [finishSweave, Act.wp_bind]
  refine (collectTex_fresh hs hpdf).mono ?_ ?_
  · rintro finfo s₁ ⟨hdeferred, hcurrent⟩
    have hleft := fun hfound => current_called tools
      (changeDirectory (parentPath scratchPath)) (hcurrent hfound)
      (by simp [changeDirectory, Call.dest])
    apply call_rule
    · intro _ _
      exact announcesFresh_of_nil (by simpa using hdeferred)
    intro _
    rw [Act.wp_bind, Act.wp_modify]
    apply flush_rule
    · intro _ _
      exact announcesFresh_of_nil (by simpa using hdeferred)
    intro _
    rw [wp_scheduleExecComplete]
    apply announcesFresh_scheduling
    · simpa using hdeferred
    · exact fun hfound => current_flushed tools (hleft hfound)
  · exact fun _ _ hdeferred => announcesFresh_of_nil hdeferred

theorem executeSweave_fresh {fpath : String} {command : JsonCommand}
    (hs : s.deferred = [])
    (hpdf : CollectsPdf tools fpath s.tmpDir s.outer →
      PdfRenewed tools fpath s.tmpDir s.outer) :
    Act.wp (executeSweave tools.onFiles fpath command)
      (fun _ => AnnouncesFresh (append s.tmpDir (pdfName fpath s.tmpDir)))
      (fun _ => AnnouncesFresh (append s.tmpDir (pdfName fpath s.tmpDir)))
      s := by
  rw [executeSweave, Act.wp_bind, Act.wp_get]
  apply call_rule
  · intro _ _
    exact announcesFresh_of_nil (by simpa using hs)
  intro _
  apply call_rule
  · intro _ _
    exact announcesFresh_of_nil (by simpa using hs)
  intro _
  rw [Act.wp_bind, wp_catchRuntimeError]
  apply call_rule
  · intro e _
    split
    next =>
      -- an R error is acknowledged without a file
      rw [Act.wp_bind, wp_sendOutputBufferToClient, Act.wp_bind,
        wp_scheduleExecComplete]
      apply announcesFresh_scheduling
      · simpa using hs
      · exact fun hfound => absurd hfound (by decide)
    next => exact announcesFresh_of_nil (by simpa using hs)
  intro hswept
  rw [Act.wp_pure]
  let s₁ := ((s.called tools.onFiles (.createDirectories
    (append s.tmpDir ".rc2sw"))).called tools.onFiles (changeDirectory
      (append s.tmpDir ".rc2sw"))).called tools.onFiles (sweaveFile fpath)
  have houter : s₁.outer = sweaveOuter tools fpath s.tmpDir s.outer := rfl
  have hdir : s₁.tmpDir = s.tmpDir := by simp [s₁]
  have hfinish : Act.wp (finishSweave tools.onFiles (append s.tmpDir fpath)
      (append s.tmpDir ".rc2sw") (stem (append s.tmpDir fpath)) command)
      (fun _ => AnnouncesFresh (append s₁.tmpDir (pdfName fpath s.tmpDir)))
      (fun _ => AnnouncesFresh (append s₁.tmpDir (pdfName fpath s.tmpDir)))
      s₁ := by
    apply finishSweave_fresh
    · simpa [s₁] using hs
    · intro htex hfound
      rw [houter] at htex ⊢
      exact (hpdf ⟨hswept, htex, hfound⟩).currentOrEmpty
  rw [hdir] at hfinish
  exact hfinish

end Sweave

/-! ## Runs of a file -/

/-- The file that is copied into the working directory for a source. -/
def outputPath (fpath tmpDir : String) : Option String :=
  match fileKind fpath with
  | .markdown => some (append tmpDir (htmlName fpath))
  | .sweave => some (append tmpDir (pdfName fpath tmpDir))
  | .source | .unsupported => none

section Files

variable (tools : Tools ν)

/-- The condition on a command: where it reports what `texi2pdf` has made of a
Sweave file, that is not the PDF file of an earlier run. -/
def Renewed (command : JsonCommand) (s : RSession (FileSystem String) ν) :
    Prop :=
  ∀ fpath ∈ commandFile tools.onFiles command s, fileKind fpath = .sweave →
    dispatchFailure tools.onFiles command s = none →
    CollectsPdf tools fpath s.tmpDir (fileOuter tools.onFiles s) →
    PdfRenewed tools fpath s.tmpDir (fileOuter tools.onFiles s)

variable {tools} {s : RSession (FileSystem String) ν}

theorem extension_of_fileKind {fpath : String} :
    (fileKind fpath = .markdown → extension fpath = ".Rmd") ∧
      (fileKind fpath = .sweave → extension fpath = ".Rnw") := by
  constructor
  · grind [fileKind]
  · grind [fileKind]

theorem executeByExtension_fresh {fpath path : String} (command : JsonCommand)
    (hpath : outputPath fpath s.tmpDir = some path) (hs : s.deferred = [])
    (hpdf : fileKind fpath = .sweave →
      CollectsPdf tools fpath s.tmpDir s.outer →
      PdfRenewed tools fpath s.tmpDir s.outer) :
    Act.wp (executeByExtension tools.onFiles fpath command)
      (fun _ => AnnouncesFresh path) (fun _ => AnnouncesFresh path) s := by
  rw [executeByExtension, Act.wp_bind, Act.wp_get]
  beta_reduce
  rw [outputPath] at hpath
  cases hkind : fileKind fpath with
  | markdown =>
      have hfile := extension_of_fileKind.1 hkind
      rw [hkind] at hpath
      obtain rfl := Option.some.inj hpath
      rw [if_pos hfile]
      exact executeRMarkdown_fresh hfile hs
  | sweave =>
      have hfile := extension_of_fileKind.2 hkind
      rw [hkind] at hpath
      obtain rfl := Option.some.inj hpath
      rw [if_neg (by rw [hfile]; decide), if_pos hfile]
      exact executeSweave_fresh hs (hpdf hkind)
  | source | unsupported =>
      rw [hkind] at hpath
      cases hpath

theorem executeKnownFile_fresh {fpath path : String} (command : JsonCommand)
    (hpath : outputPath fpath s.tmpDir = some path) (hs : s.deferred = [])
    (hpdf : fileKind fpath = .sweave →
      CollectsPdf tools fpath s.tmpDir (fileOuter tools.onFiles s) →
      PdfRenewed tools fpath s.tmpDir (fileOuter tools.onFiles s)) :
    Act.wp (executeKnownFile tools.onFiles fpath command)
      (fun _ => AnnouncesFresh path) (fun _ => AnnouncesFresh path) s := by
  let s₁ := (s.moving tools.onFiles.resetWatch).calledIf tools.onFiles
    s.watchVariables .captureEnvironment
  have hdeferred : s₁.deferred = [] := by
    unfold s₁ RSession.calledIf
    split
    · simpa using hs
    · exact hs
  have hdir : s₁.tmpDir = s.tmpDir := by simp [s₁]
  have houter : s₁.outer = fileOuter tools.onFiles s := by
    simp [s₁, fileOuter]
  rw [executeKnownFile, Act.wp_bind, Act.wp_modify, Act.wp_bind, Act.wp_get]
  apply callIf_rule
  · intro _ _
    exact announcesFresh_of_nil (by simpa using hs)
  intro _
  have hfresh : Act.wp (executeByExtension tools.onFiles fpath command)
      (fun _ => AnnouncesFresh path) (fun _ => AnnouncesFresh path) s₁ := by
    apply executeByExtension_fresh command _ hdeferred
    · rw [hdir, houter]
      exact hpdf
    · rw [hdir]
      exact hpath
  exact hfresh

theorem executeFile_fresh {command : JsonCommand} {fpath path : String}
    (hfile : commandFile tools.onFiles command s = some fpath)
    (hpath : outputPath fpath s.tmpDir = some path) (hs : s.deferred = [])
    (hpdf : fileKind fpath = .sweave →
      CollectsPdf tools fpath s.tmpDir (fileOuter tools.onFiles s) →
      PdfRenewed tools fpath s.tmpDir (fileOuter tools.onFiles s)) :
    Act.wp (executeFile tools.onFiles command)
      (fun _ => AnnouncesFresh path) (fun _ => AnnouncesFresh path) s := by
  rw [executeFile]
  apply read_rule
  · exact fun _ _ => announcesFresh_of_nil hs
  intro argument harg
  have hknown : tools.onFiles.filePathForId s.outer (atol argument.toList) =
      some fpath := by
    rw [← hfile, commandFile, harg]
  rw [Act.wp_bind, Act.wp_get]
  dsimp only
  rw [hknown]
  exact executeKnownFile_fresh command hpath hs hpdf

/-- A command that throws puts nothing in the queue. -/
theorem dispatchCommand_fresh {command : JsonCommand} {fpath path : String}
    (htype : command.type = .ExecFile)
    (hfile : commandFile tools.onFiles command s = some fpath)
    (hpath : outputPath fpath s.tmpDir = some path) (hs : s.deferred = [])
    (hrenewed : Renewed tools command s) :
    Act.wp (dispatchCommand tools.onFiles command)
      (fun _ => AnnouncesFresh path) (fun _ => AnnouncesFresh path) s := by
  cases hfailure : dispatchFailure tools.onFiles command s with
  | some f =>
      refine (dispatchCommand_spec tools.onFiles command s).mono ?_ ?_
      · rintro _ s' ⟨hnone, -, -⟩
        rw [hfailure] at hnone
        cases hnone
      · rintro e s' ⟨c, -, hprogress, -⟩
        apply announcesFresh_of_nil
        rw [hprogress.deferred, hs, List.nil_append]
  | none =>
      rw [dispatchCommand, htype]
      apply executeFile_fresh hfile hpath hs
      intro hkind hcollects
      exact hrenewed fpath hfile hkind hfailure hcollects

/-- What a run of a file sends and puts in the queue. -/
theorem progress_of_fileEnd {command : JsonCommand} {fpath path : String}
    {outer : FileSystem String} {s' : RSession (FileSystem String) ν}
    (hpath : outputPath fpath s.tmpDir = some path)
    (h : FileEnd tools.onFiles fpath outer command s s') :
    ∃ replies events, Progress s s' replies events ∧
      (∀ m ∈ replies, m.isShowOutput = false) ∧
      ∀ event ∈ events, ∃ queryId finfo,
        event = .execComplete command queryId finfo := by
  rw [outputPath] at hpath
  rw [FileEnd] at h
  cases hkind : fileKind fpath with
  | markdown =>
      rw [hkind] at h
      dsimp only at h
      rw [MarkdownEnd] at h
      split at h
      · obtain ⟨finfo, hend⟩ := h
        exact ⟨_, _, hend, by simp, by simp⟩
      · obtain ⟨details, hend⟩ := h
        exact ⟨_, _, hend, by simp [formatErrorAsJson, Message.isShowOutput],
          by simp⟩
  | sweave =>
      rw [hkind] at h
      obtain ⟨finfo, hend⟩ := h
      exact ⟨_, _, hend, by simp, by simp⟩
  | source | unsupported =>
      rw [hkind] at hpath
      cases hpath

/-- A session after a callback for a file with output at `path`. -/
structure Announcing (path : String) (s : RSession (FileSystem String) ν) :
    Prop where
  fresh : AnnouncesFresh path s
  acks : ∀ event ∈ s.deferred, ∃ command queryId finfo,
    event = .execComplete command queryId finfo
  sent : ∀ m ∈ s.sent, m.isShowOutput = false

theorem Announcing.of_empty {path : String} (hsent : s.sent = [])
    (hdeferred : s.deferred = []) : Announcing path s where
  fresh := announcesFresh_of_nil hdeferred
  acks := by simp [hdeferred]
  sent := by simp [hsent]

/-- What R wrote shows no file. -/
theorem Progress.isShowOutput {s s' : RSession σ ν}
    {replies : List (Message ν)} {events : List Deferred}
    (h : Progress s s' replies events) (hs : s.sent = []) {m : Message ν}
    (hm : m ∈ s'.sent) (hshown : m.isShowOutput = true) : m ∈ replies := by
  obtain ⟨messages, hsent, hreplies, -⟩ := h.sent
  rw [hsent, hs, List.nil_append] at hm
  rw [← hreplies, List.mem_filter]
  refine ⟨hm, ?_⟩
  cases hconsole : m.fromConsole with
  | true =>
      rw [Message.isShowOutput_of_fromConsole hconsole] at hshown
      cases hshown
  | false => rfl

theorem Announcing.of_progress {path : String}
    {s' : RSession (FileSystem String) ν} {replies : List (Message ν)}
    {events : List Deferred} (h : Progress s s' replies events)
    (hsent : s.sent = []) (hdeferred : s.deferred = [])
    (hreplies : ∀ m ∈ replies, m.isShowOutput = false)
    (hevents : ∀ event ∈ events, ∃ command queryId finfo,
      event = .execComplete command queryId finfo)
    (hfresh : AnnouncesFresh path s') : Announcing path s' where
  fresh := hfresh
  acks := by
    rw [h.deferred, hdeferred, List.nil_append]
    exact hevents
  sent := by
    intro m hm
    by_contra hshown
    rw [Bool.not_eq_false] at hshown
    have hmem := h.isShowOutput hsent hm hshown
    rw [hreplies m hmem] at hshown
    cases hshown

/-- The message of the catch clause shows no file. -/
theorem Announcing.caught {path : String} (h : Announcing path s)
    (e : CxxException) :
    Announcing path ((s.sending (commandError e)).querying 0) where
  fresh := h.fresh
  acks := h.acks
  sent := by
    intro m hm
    rcases List.mem_append.mp hm with hm | hm
    · exact h.sent m hm
    · obtain rfl := List.mem_singleton.mp hm
      rfl

theorem dispatchCommand_announcing {command : JsonCommand}
    {fpath path : String} (htype : command.type = .ExecFile)
    (hfile : commandFile tools.onFiles command s = some fpath)
    (hpath : outputPath fpath s.tmpDir = some path) (hsent : s.sent = [])
    (hdeferred : s.deferred = []) (hrenewed : Renewed tools command s) :
    Act.wp (dispatchCommand tools.onFiles command)
      (fun _ => Announcing path) (fun _ => Announcing path) s := by
  have hfresh := dispatchCommand_fresh htype hfile hpath hdeferred hrenewed
  refine ((dispatchCommand_spec tools.onFiles command s).and hfresh).mono ?_ ?_
  · rintro _ s' ⟨⟨-, -, hend⟩, hannounces⟩
    rw [DispatchEnd, htype] at hend
    dsimp only at hend
    rw [FileCommandEnd, hfile] at hend
    obtain ⟨replies, events, hprogress, hreplies, hevents⟩ :=
      progress_of_fileEnd hpath hend
    apply Announcing.of_progress hprogress hsent hdeferred hreplies _ hannounces
    exact fun event hevent => ⟨command, hevents event hevent⟩
  · rintro e s' ⟨⟨c, -, hprogress, -⟩, hannounces⟩
    exact Announcing.of_progress hprogress hsent hdeferred (by simp) (by simp)
      hannounces

/-- A text that an open session reads as the command to run an R Markdown or
Sweave file. -/
structure RunsFile (tools : Tools ν) (parser : JsonParser) (json : String)
    (s : RSession (FileSystem String) ν) (command : JsonCommand)
    (path : String) : Prop where
  requests : Requests tools.onFiles parser json command
  type : command.type = .ExecFile
  isOpen : s.isOpen = true
  file : ∃ fpath, commandFile tools.onFiles command s = some fpath ∧
    outputPath fpath s.tmpDir = some path

theorem handleJsonStatic_announcing {parser : JsonParser}
    {json path : String} {command : JsonCommand}
    (h : RunsFile tools parser json s command path) (hsent : s.sent = [])
    (hdeferred : s.deferred = []) (hrenewed : Renewed tools command s) :
    Announcing path (handleJsonStatic tools.onFiles parser json s).2 := by
  obtain ⟨fpath, hfile, hpath⟩ := h.file
  have hlost : ∀ (e : CxxException) s', Announcing path s' →
      Act.wp (if e.type.isStdException then pure ()
          else Act.throw e : Handler (FileSystem String) ν Unit)
        (fun _ => Announcing path) (fun _ => Announcing path) s' := by
    intro e s' hend
    split
    · exact hend
    · exact hend
  have hstatic : Act.wp (handleJsonStatic tools.onFiles parser json)
      (fun _ => Announcing path) (fun _ => Announcing path) s := by
    rw [handleJsonStatic, Act.wp_tryCatch]
    apply h.requests.rule h.isOpen
    · intro e _ _
      exact hlost e s (Announcing.of_empty hsent hdeferred)
    · intro queryId _
      have hrun : Act.wp (dispatchCommand tools.onFiles command)
          (fun _ => Announcing path) (fun _ => Announcing path)
          (s.querying queryId) :=
        dispatchCommand_announcing h.type hfile hpath hsent hdeferred hrenewed
      apply hrun.mono
      · exact fun _ s' hend => ⟨hend.fresh, hend.acks, hend.sent⟩
      · intro e s' hend
        rw [Caught]
        split
        · exact hend.caught e
        · exact hlost e s' hend
  exact hstatic.final

/-- A session that has put nothing in the queue, and has shown a file only if
there is one. -/
def ShowsFile (finfo : FileInfo) (s : RSession σ ν) : Prop :=
  s.deferred = [] ∧ ∀ m ∈ s.sent, m.isShowOutput = true → finfo.id > 0

theorem handleExecComplete_shows (tools : Tools ν) (command : JsonCommand)
    (queryId : ℤ) (finfo : FileInfo) (hsent : s.sent = [])
    (hdeferred : s.deferred = []) :
    ShowsFile finfo
      (handleExecComplete tools.onFiles command queryId finfo s).2 := by
  have hend : Act.wp (handleExecComplete tools.onFiles command queryId finfo)
      (fun _ => ShowsFile finfo) (fun _ => ShowsFile finfo) s := by
    refine (handleExecComplete_spec tools.onFiles command queryId finfo s).mono
      ?_ ?_
    · rintro _ s' ⟨-, -, replies, ⟨startTime, images, imgBatch, file, rfl⟩,
        hprogress⟩
      refine ⟨by rw [hprogress.deferred, hdeferred, List.append_nil], ?_⟩
      intro m hm hshown
      have hmem := hprogress.isShowOutput hsent hm hshown
      rcases List.mem_cons.mp hmem with rfl | hmem
      · cases hshown
      · split at hmem
        next hfile => exact hfile
        next => cases hmem
    · rintro e s' ⟨c, -, hprogress, -⟩
      refine ⟨by rw [hprogress.deferred, hdeferred, List.append_nil], ?_⟩
      intro m hm hshown
      cases hprogress.isShowOutput hsent hm hshown
  exact hend.final

end Files

/-! ## Runs -/

/-- What a run has left at the path of its output. -/
structure Output where
  run : ℕ
  file : Option Produced
deriving DecidableEq, Repr

/-- The output was produced by its run. -/
def Output.Fresh (output : Output) : Prop :=
  ∀ file ∈ output.file, file.run = output.run

instance (output : Output) : Decidable output.Fresh :=
  inferInstanceAs (Decidable (∀ file ∈ output.file, file.run = output.run))

/-- A session with the events waiting in its queue and the messages it has
sent, each with the output of the run that caused it. -/
structure Rendering (ν : Type) where
  session : RSession (FileSystem String) ν
  pending : List (Deferred × Output)
  log : List (Message ν × Output)

/-- A callback of the loop: a text of the client, before which the client may
have changed files, or an event of the queue. -/
inductive Rerun (ν : Type) where
  | text (tools : Tools ν) (edits : String → Change) (json : String)
  | event (tools : Tools ν) (index : ℕ)

namespace Rendering

/-- A session before the first run. -/
def start (s : RSession (FileSystem String) ν) : Rendering ν :=
  ⟨{ s with sent := [], deferred := [] }, [], []⟩

/-- What a callback has sent and put in the queue is taken from the
session. -/
def collect (r : Rendering ν) (output : Output)
    (pending : List (Deferred × Output))
    (s : RSession (FileSystem String) ν) : Rendering ν where
  session := { s with sent := [], deferred := [] }
  pending := pending ++ s.deferred.map fun event => (event, output)
  log := r.log ++ s.sent.map fun m => (m, output)

/-- A new run begins. -/
def prepare (r : Rendering ν) (edits : String → Change) :
    RSession (FileSystem String) ν :=
  r.session.moving fun fs => (fs.change edits).nextRun

/-- The output of a command of `s`, once it has been handled. -/
def outputOf (tools : Tools ν) (command : JsonCommand)
    (s s' : RSession (FileSystem String) ν) : Output where
  run := s'.outer.run
  file := do
    let fpath ← commandFile tools.onFiles command s
    let path ← outputPath fpath s.tmpDir
    s'.outer.files path

/-- One callback. -/
def step (parser : JsonParser) (r : Rendering ν) : Rerun ν → Rendering ν
  | .text tools edits json =>
      let s := r.prepare edits
      let s' := (handleJsonStatic tools.onFiles parser json s).2
      r.collect (outputOf tools (causeOf tools.onFiles parser json) s s')
        r.pending s'
  | .event tools index =>
      match r.pending[index]? with
      | none => r
      | some (event, output) =>
          r.collect output (r.pending.eraseIdx index)
            (runDeferred tools.onFiles parser event r.session).2

/-- Every text is a command to run an R Markdown or Sweave file. -/
def TurnRunsFile (parser : JsonParser) (r : Rendering ν) : Rerun ν → Prop
  | .text tools edits json =>
      ∃ path, RunsFile tools parser json (r.prepare edits)
        (causeOf tools.onFiles parser json) path
  | .event _ _ => True

/-- The condition on a callback. -/
def TurnRenewed (parser : JsonParser) (r : Rendering ν) : Rerun ν → Prop
  | .text tools edits json =>
      Renewed tools (causeOf tools.onFiles parser json) (r.prepare edits)
  | .event _ _ => True

/-- The queue holds acknowledgements, and those that announce output, like the
messages that show it, do so for output produced by their run. -/
structure Accounted (r : Rendering ν) : Prop where
  sent : r.session.sent = []
  deferred : r.session.deferred = []
  acks : ∀ p ∈ r.pending, ∃ command queryId finfo,
    p.1 = .execComplete command queryId finfo ∧
      (finfo.id > 0 → p.2.Fresh)
  log : ∀ p ∈ r.log, p.1.isShowOutput = true → p.2.Fresh

theorem accounted_start (s : RSession (FileSystem String) ν) :
    (start s).Accounted where
  sent := rfl
  deferred := rfl
  acks := by simp [start]
  log := by simp [start]

theorem Accounted.text {r : Rendering ν} {parser : JsonParser}
    {tools : Tools ν} {edits : String → Change} {json : String}
    (h : r.Accounted) (hruns : TurnRunsFile parser r (.text tools edits json))
    (hrenewed : TurnRenewed parser r (.text tools edits json)) :
    (r.step parser (.text tools edits json)).Accounted := by
  obtain ⟨path, hruns⟩ := hruns
  have hend := handleJsonStatic_announcing hruns h.sent h.deferred hrenewed
  obtain ⟨fpath, hfile, hpath⟩ := hruns.file
  have hfresh : ∀ s', (s' : RSession (FileSystem String) ν).outer.Current path →
      (outputOf tools (causeOf tools.onFiles parser json) (r.prepare edits)
        s').Fresh := by
    intro s' hcurrent file hmem
    rw [outputOf, hfile] at hmem
    simp only [Option.bind_eq_bind, Option.bind_some, hpath] at hmem
    exact hcurrent file hmem
  constructor
  · rfl
  · rfl
  · intro p hp
    rcases List.mem_append.mp hp with hp | hp
    · exact h.acks p hp
    · obtain ⟨event, hevent, rfl⟩ := List.mem_map.mp hp
      obtain ⟨command, queryId, finfo, rfl⟩ := hend.acks event hevent
      refine ⟨command, queryId, finfo, rfl, fun hid => hfresh _ ?_⟩
      exact hend.fresh _ hevent (by simpa [Deferred.showsOutput] using hid)
  · intro p hp hshown
    rcases List.mem_append.mp hp with hp | hp
    · exact h.log p hp hshown
    · obtain ⟨m, hm, rfl⟩ := List.mem_map.mp hp
      have hnone := hend.sent m hm
      rw [hnone] at hshown
      cases hshown

theorem Accounted.event {r : Rendering ν} {parser : JsonParser}
    {tools : Tools ν} {index : ℕ} (h : r.Accounted) :
    (r.step parser (.event tools index)).Accounted := by
  rw [step]
  cases hevent : r.pending[index]? with
  | none => exact h
  | some p =>
      obtain ⟨event, output⟩ := p
      have hmem := List.mem_of_getElem? hevent
      obtain ⟨command, queryId, finfo, hack, hfresh⟩ := h.acks _ hmem
      obtain rfl : event = .execComplete command queryId finfo := hack
      obtain ⟨hdeferred, hshows⟩ :=
        handleExecComplete_shows tools command queryId finfo h.sent h.deferred
      constructor
      · rfl
      · rfl
      · intro p hp
        rcases List.mem_append.mp hp with hp | hp
        · exact h.acks p (List.mem_of_mem_eraseIdx hp)
        · rw [runDeferred, hdeferred] at hp
          cases hp
      · intro p hp hshown
        rcases List.mem_append.mp hp with hp | hp
        · exact h.log p hp hshown
        · obtain ⟨m, hm, rfl⟩ := List.mem_map.mp hp
          exact hfresh (hshows m hm hshown)

theorem Accounted.step {r : Rendering ν} {parser : JsonParser}
    {turn : Rerun ν} (h : r.Accounted)
    (hturn : TurnRunsFile parser r turn ∧ TurnRenewed parser r turn) :
    (r.step parser turn).Accounted := by
  cases turn with
  | text tools edits json => exact h.text hturn.1 hturn.2
  | event tools index => exact h.event

end Rendering

/-- In every run of commands on R Markdown and Sweave files that all meet the
condition, the output behind every `showoutput` was produced by the run that
announced it. -/
theorem fresh_of_renewed (parser : JsonParser)
    (s : RSession (FileSystem String) ν) (turns : List (Rerun ν))
    (hfiles : Transition.Along (Rendering.step parser)
      (Rendering.TurnRunsFile parser) (Rendering.start s) turns)
    (hrenewed : Transition.Along (Rendering.step parser)
      (Rendering.TurnRenewed parser) (Rendering.start s) turns) :
    ∀ p ∈ (Transition.run (Rendering.step parser) (Rendering.start s)
      turns).log, p.1.isShowOutput = true → p.2.Fresh :=
  (Transition.run_invariant (fun _ _ h hturn => h.step hturn)
    (Rendering.accounted_start s)
    (Transition.along_and.mpr ⟨hfiles, hrenewed⟩)).log

/-! ## A report that is run twice -/

/-- The command of a client that runs a Sweave file. -/
def reportCommand : JsonCommand where
  cmd := .object [("msg", .string "execFile"), ("queryId", .integer 1),
    ("argument", .string "3")]
  type := .ExecFile

def reportParser : JsonParser :=
  .ofTexts [("report", reportCommand.cmd)]

/-- Services on which `Sweave` makes a `.tex` file of `a.Rnw`, and `texi2pdf`
does `made` to the PDF file. -/
def sweaving (made : Change) : Tools Unit where
  services := { Services.succeeding () with
    filePathForId := fun _ _ => some "a.Rnw" }
  changes c path :=
    if c = sweaveFile "a.Rnw" ∧ path = "/w/.rc2sw/a.tex" then .write false
    else .keep
  texi2pdf path := if path = "/w/.rc2sw/a.pdf" then made else .keep

/-- An open session with an empty working directory. -/
def emptyWorkspace : RSession (FileSystem String) Unit :=
  { (RSession.fresh ⟨fun _ => none, 0⟩).opened with tmpDir := "/w" }

/-- The report is run twice, and each run is acknowledged. -/
def rerunReport (first second : Change) : List (Rerun Unit) :=
  [.text (sweaving first) (fun _ => .keep) "report",
    .event (sweaving first) 0,
    .text (sweaving second) (fun _ => .keep) "report",
    .event (sweaving second) 0]

theorem runsFile_report {made : Change}
    {s : RSession (FileSystem String) Unit} (hopen : s.isOpen = true)
    (hdir : s.tmpDir = "/w") :
    RunsFile (sweaving made) reportParser "report" s reportCommand
      "/w/a.pdf" where
  requests := ⟨by decide, ⟨_, rfl, rfl⟩, by decide⟩
  type := rfl
  isOpen := hopen
  file := by
    refine ⟨"a.Rnw", rfl, ?_⟩
    rw [hdir]
    decide +kernel

theorem runsFile_rerunReport (second : Change) :
    Transition.Along (Rendering.step reportParser)
      (Rendering.TurnRunsFile reportParser) (Rendering.start emptyWorkspace)
      (rerunReport (.write false) second) := by
  refine ⟨⟨_, runsFile_report rfl rfl⟩, trivial,
    ⟨_, runsFile_report ?_ ?_⟩, trivial, trivial⟩
  · decide +kernel
  · decide +kernel

/-- A PDF file that `texi2pdf` writes is no older one. -/
theorem renewed_of_write {empty : Bool}
    {s : RSession (FileSystem String) Unit} (hdir : s.tmpDir = "/w") :
    Renewed (sweaving (.write empty)) reportCommand s := by
  intro fpath hfile _ _ _
  have hpath : some "a.Rnw" = some fpath := hfile
  obtain rfl := Option.some.inj hpath
  apply Or.inr
  refine ⟨(sweaving (.write empty)).texi2pdf, by simp, ?_⟩
  have hpdf : scratchPdf "a.Rnw" "/w" = "/w/.rc2sw/a.pdf" := by decide +kernel
  rw [hdir, hpdf]
  simp [sweaving]

theorem fresh_of_renewed_rerunReport :
    (Transition.run (Rendering.step reportParser)
      (Rendering.start emptyWorkspace)
      (rerunReport (.write false) (.write false))).log.Forall
      fun p => p.1.isShowOutput = true → p.2.Fresh := by
  rw [List.forall_iff_forall_mem]
  apply fresh_of_renewed reportParser emptyWorkspace
  · exact runsFile_rerunReport (.write false)
  · refine ⟨renewed_of_write rfl, trivial, renewed_of_write ?_, trivial,
      trivial⟩
    decide +kernel

/-- `texi2pdf` fails in the second run, and the PDF file of the first one is
shown again. -/
theorem fresh_fails_on_failed_texi2pdf :
    ¬∀ turns : List (Rerun Unit),
      Transition.Along (Rendering.step reportParser)
        (Rendering.TurnRunsFile reportParser) (Rendering.start emptyWorkspace)
        turns →
      ∀ p ∈ (Transition.run (Rendering.step reportParser)
        (Rendering.start emptyWorkspace) turns).log,
        p.1.isShowOutput = true → p.2.Fresh := by
  intro h
  have hstale := h (rerunReport (.write false) .keep)
    (runsFile_rerunReport .keep)
  revert hstale
  decide +kernel

end Rc2Compute.Session
