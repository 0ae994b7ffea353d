import Rc2Compute.Session.Directory
import Rc2Compute.Support.StringLiteral

/-!
# Texts inside R commands

`escape_quotes` is made for double-quoted literals, and a text it has escaped
is read back from one.  The commands of `executeSweave` put the texts between
single quotes, which it leaves as they are.
-/

namespace Rc2Compute.Session

/-! ## R's literals -/

def nul : Char := Char.ofNat 0

def apostrophe : Char := Char.ofNat 39

/-- What a backslash and a character mean.  (Octal, hexadecimal and Unicode
escapes are longer.) -/
def rEscape (c : Char) : Option Char :=
  if c ∈ "\\\"'` \n".toList then some c
  else ("abfnrtv".toList.zip "\x07\x08\x0c\n\r\t\x0b".toList).lookup c

/-- The literals between two of these quotes. -/
def rString (quote : Char) (h : quote ∈ rQuotes) : LiteralSyntax where
  quote := quote
  escape := rEscape
  plain c := c ≠ nul
  quote_ne := by
    rintro rfl
    revert h
    decide

/-- The literals a character begins. -/
def rOpens (c : Char) : Option LiteralSyntax :=
  if h : c ∈ rQuotes then some (rString c h) else none

theorem doubleQuote_mem : '"' ∈ rQuotes := by decide

theorem apostrophe_mem : apostrophe ∈ rQuotes := by decide

/-- The literals between double quotes. -/
def doubleQuoted : LiteralSyntax := rString '"' doubleQuote_mem

/-- The literals between single quotes. -/
def singleQuoted : LiteralSyntax := rString apostrophe apostrophe_mem

/-- R reads the command of a call as these pieces. -/
def Call.ReadAs (pieces : List Piece) : Call → Prop
  | .parseEvalQNT rcmd | .parseEvalNT rcmd | .parseEval rcmd =>
      Reads rOpens rcmd.toList pieces
  | _ => False

/-- The pieces of a command with a text in it. -/
def commandPieces (before text behind : String) : List Piece :=
  codePieces before.toList ++
    .literal text.toList :: codePieces behind.toList

def NulFree (text : String) : Prop :=
  ∀ c ∈ text.toList, c ≠ nul

instance (text : String) : Decidable (NulFree text) :=
  List.decidableBAll (fun c => c ≠ nul) text.toList

/-! ## What `escape_quotes` adds -/

/-- The characters that get a backslash. -/
abbrev NeedsBackslash (c : Char) : Prop :=
  c = '"' ∨ c = '\\'

theorem escape_quotes_toList (before : String) :
    (escape_quotes before).toList =
      escaped NeedsBackslash before.toList := by
  rw [escape_quotes, String.toList_ofList]
  rfl

theorem rEscape_of_needsBackslash (c : Char) (h : NeedsBackslash c) :
    rEscape c = some c := by
  rcases h with rfl | rfl
  · decide
  · decide

theorem escape_quotes_injective : Function.Injective escape_quotes := by
  intro before before' h
  have hlist := congrArg String.toList h
  rw [escape_quotes_toList, escape_quotes_toList] at hlist
  exact String.toList_injective (escaped_injective (Or.inr rfl) hlist)

/-- A text is read back from between quotes that are not in it, or are double
quotes. -/
theorem read_escape_quotes {quote : Char} (hquote : quote ∈ rQuotes)
    {text : String} (h : NulFree text)
    (hinside : quote = '"' ∨ quote ∉ text.toList) (rest : List Char) :
    (rString quote hquote).read
      ((escape_quotes text).toList ++ quote :: rest) =
        some (text.toList, rest) := by
  rw [escape_quotes_toList]
  apply LiteralSyntax.read_escaped (L := rString quote hquote)
    rEscape_of_needsBackslash (Or.inr rfl)
  intro c hc
  by_cases hspecial : NeedsBackslash c
  · exact Or.inl hspecial
  · refine Or.inr ⟨?_, decide_eq_true (h c hc)⟩
    rintro rfl
    rcases hinside with hdouble | hnot
    · exact hspecial (Or.inl hdouble)
    · exact hnot hc

/-! ## Commands -/

section Commands

variable {quote : Char} (hquote : quote ∈ rQuotes)

include hquote

theorem rOpens_of_mem : rOpens quote = some (rString quote hquote) :=
  dif_pos hquote

/-- A literal behind some code. -/
theorem reads_code_literal {before text rest : List Char}
    {pieces : List Piece} (hbefore : ∀ c ∈ before, rOpens c = none) :
    Reads rOpens (before ++ quote :: rest)
        (codePieces before ++ .literal text :: pieces) ↔
      ∃ behind, (rString quote hquote).read rest = some (text, behind) ∧
        Reads rOpens behind pieces :=
  (reads_code_append hbefore).trans (reads_literal (rOpens_of_mem hquote))

/-- A command with an escaped text in it. -/
theorem reads_escape_quotes (before : String) {text : String}
    {behind : List Char} {pieces : List Piece}
    (hbefore : ∀ c ∈ before.toList, rOpens c = none)
    (htext : NulFree text) (hinside : quote = '"' ∨ quote ∉ text.toList)
    (hbehind : Reads rOpens behind pieces) :
    Reads rOpens
      (before.toList ++ quote :: ((escape_quotes text).toList ++
        quote :: behind))
      (codePieces before.toList ++ .literal text.toList :: pieces) :=
  (reads_code_literal hquote hbefore).mpr
    ⟨behind, read_escape_quotes hquote htext hinside behind, hbehind⟩

end Commands

/-- A text between double quotes, with code before and behind it. -/
theorem readAs_doubleQuoted (before behind : String) {rcmd text : String}
    (hrcmd : rcmd = before ++ "\"" ++ escape_quotes text ++ "\"" ++ behind)
    (hbefore : ∀ c ∈ before.toList, rOpens c = none)
    (hbehind : ∀ c ∈ behind.toList, rOpens c = none) (htext : NulFree text) :
    Reads rOpens rcmd.toList (commandPieces before text behind) := by
  have h := reads_escape_quotes doubleQuote_mem before hbefore htext
    (Or.inl rfl) (reads_codePieces hbehind)
  have hlist : rcmd.toList = before.toList ++
      '"' :: ((escape_quotes text).toList ++ '"' :: behind.toList) := by
    rw [hrcmd]
    simp only [String.toList_append, List.append_assoc]
    rfl
  rw [hlist]
  exact h

theorem helpTopic_readAs {topic : String} (h : NulFree topic) :
    (helpTopic topic).ReadAs (commandPieces "help(" topic ")") :=
  readAs_doubleQuoted _ _ (by simp only [String.append_assoc]; rfl)
    (by decide) (by decide) h

theorem sourceFile_readAs {fpath : String} (h : NulFree fpath) :
    (sourceFile fpath).ReadAs
      (commandPieces "source(file=" fpath ", echo=TRUE)") :=
  readAs_doubleQuoted _ _ (by simp only [String.append_assoc]; rfl)
    (by decide) (by decide) h

theorem setDirectory_readAs {workDir : String} (h : NulFree workDir) :
    (setDirectory workDir).ReadAs (commandPieces "setwd(" workDir ")") :=
  readAs_doubleQuoted _ _ (by simp only [String.append_assoc]; rfl)
    (by decide) (by decide) h

theorem IsTemporary.nulFree {path : String} (h : IsTemporary path) :
    NulFree path := by
  obtain ⟨uuid, huuid, rfl⟩ := h
  intro c hc
  rw [String.toList_append, List.mem_append] at hc
  rcases hc with hc | hc
  · exact (by decide : NulFree "/tmp/") c hc
  · rintro rfl
    have hplain := huuid.plain nul hc
    revert hplain
    decide

theorem PlainText.notMem {text : String} (h : PlainText text) {quote : Char}
    (hquote : quote ∈ rQuotes) : quote ∉ text.toList :=
  fun hmem => (h quote hmem).1 hquote

/-- The pieces of the command that renders a file. -/
def renderPieces (fileName tmp : String) : List Piece :=
  codePieces "setwd(".toList ++ .literal tmp.toList ::
    commandPieces ");render(" fileName ", output_format=html_document());"

theorem renderFile_readAs {fileName tmp : String} (hname : NulFree fileName)
    (htmp : IsTemporary tmp) :
    (renderFile fileName tmp).ReadAs (renderPieces fileName tmp) := by
  have hrender := readAs_doubleQuoted ");render("
    ", output_format=html_document());" rfl (by decide) (by decide) hname
  have h := reads_escape_quotes apostrophe_mem "setwd(" (by decide)
    htmp.nulFree
    (Or.inr (htmp.plainText.notMem (by decide))) hrender
  rw [htmp.plainText.escape_quotes] at h
  have hrcmd : ("setwd('" ++ tmp ++ "');render(\"" ++ escape_quotes fileName ++
      "\", output_format=html_document());").toList =
      "setwd(".toList ++ apostrophe :: (tmp.toList ++ apostrophe ::
        (");render(" ++ "\"" ++ escape_quotes fileName ++ "\"" ++
          ", output_format=html_document());").toList) := by
    simp only [String.toList_append, List.append_assoc]
    rfl
  change Reads rOpens (String.toList _) _
  rw [hrcmd]
  exact h

/-- A text escaped for a double-quoted literal is read back from it, so what
a command embeds is data: whatever the topic, the path or the file name is,
the code around it is the same.  Different texts are escaped differently. -/
theorem escape_quotes_embeds :
    (∀ text, NulFree text → ∀ rest, doubleQuoted.read
      ((escape_quotes text).toList ++ '"' :: rest) =
        some (text.toList, rest)) ∧
    Function.Injective escape_quotes ∧
    (∀ topic, NulFree topic →
      (helpTopic topic).ReadAs (commandPieces "help(" topic ")")) ∧
    (∀ fpath, NulFree fpath → (sourceFile fpath).ReadAs
      (commandPieces "source(file=" fpath ", echo=TRUE)")) ∧
    (∀ fileName tmp, NulFree fileName → IsTemporary tmp →
      (renderFile fileName tmp).ReadAs (renderPieces fileName tmp)) ∧
    ∀ workDir, NulFree workDir →
      (setDirectory workDir).ReadAs (commandPieces "setwd(" workDir ")") :=
  ⟨fun _ htext rest =>
      read_escape_quotes (by decide) htext (Or.inl rfl) rest,
    escape_quotes_injective,
    fun _ htopic => helpTopic_readAs htopic,
    fun _ hfpath => sourceFile_readAs hfpath,
    fun _ _ hname htmp => renderFile_readAs hname htmp,
    fun _ hworkDir => setDirectory_readAs hworkDir⟩

/-- A topic that ends in a backslash, behind a quote. -/
theorem escape_quotes_embeds_topic :
    (helpTopic "a\"b\\").ReadAs (commandPieces "help(" "a\"b\\" ")") :=
  escape_quotes_embeds.2.2.1 "a\"b\\" (by decide)

/-! ## Sweave -/

/-- A file name the workspace accepts, of a Sweave file. -/
structure IsSweaveName (name : String) : Prop where
  nulFree : NulFree name
  noSlash : '/' ∉ name.toList
  extension : extension name = ".Rnw"

/-- What comes behind the file name in the call of `Sweave`. -/
def encodingPieces : List Piece :=
  commandPieces ", encoding=" "UTF-8" ")"

/-- R reads the commands of `executeSweave` as calls with the file and the two
directories they are meant for. -/
structure SweaveReads (tmpDir name : String) : Prop where
  sweave : (sweaveFile name).ReadAs (codePieces "Sweave(".toList ++
    .literal ("../" ++ name).toList :: encodingPieces)
  scratch : (changeDirectory (append tmpDir ".rc2sw")).ReadAs
    (commandPieces "setwd(" (append tmpDir ".rc2sw") ")")
  back : (changeDirectory (parentPath (append tmpDir ".rc2sw"))).ReadAs
    (commandPieces "setwd(" (parentPath (append tmpDir ".rc2sw")) ")")

theorem reads_bracket : Reads rOpens ")".toList (codePieces ")".toList) :=
  reads_codePieces (by decide)

theorem reads_encoding :
    Reads rOpens ", encoding='UTF-8')".toList encodingPieces :=
  reads_escape_quotes apostrophe_mem ", encoding=" (by decide)
    (by decide : NulFree "UTF-8") (Or.inr (by decide)) reads_bracket

theorem changeDirectory_readAs {path : String} (hplain : PlainText path)
    (hnul : NulFree path) :
    (changeDirectory path).ReadAs (commandPieces "setwd(" path ")") := by
  have h := reads_escape_quotes apostrophe_mem "setwd(" (by decide) hnul
    (Or.inr (hplain.notMem (by decide))) reads_bracket
  have hrcmd : ("setwd('" ++ escape_quotes path ++ "')").toList =
      "setwd(".toList ++ apostrophe :: ((escape_quotes path).toList ++
        apostrophe :: ")".toList) := by
    simp only [String.toList_append, List.append_assoc]
    rfl
  change Reads rOpens (String.toList _) _
  rw [hrcmd]
  exact h

theorem NulFree.append {text rest : String} (h : NulFree text)
    (hrest : NulFree rest) : NulFree (text ++ rest) := by
  intro c hc
  rw [String.toList_append, List.mem_append] at hc
  rcases hc with hc | hc
  · exact h c hc
  · exact hrest c hc

/-- The call of `Sweave`, with the file name escaped. -/
theorem sweaveFile_toList (name : String) :
    ("Sweave('../" ++ escape_quotes name ++ "', encoding='UTF-8')").toList =
      "Sweave(".toList ++ apostrophe ::
        ((escape_quotes ("../" ++ name)).toList ++
          apostrophe :: ", encoding='UTF-8')".toList) := by
  have hstart : escaped NeedsBackslash "../".toList = "../".toList := by
    decide
  have hfile : (escape_quotes ("../" ++ name)).toList =
      "../".toList ++ (escape_quotes name).toList := by
    rw [escape_quotes_toList, escape_quotes_toList, String.toList_append,
      escaped_append, hstart]
  rw [hfile]
  simp only [String.toList_append, List.append_assoc]
  rfl

/-- The first apostrophe of a text ends a literal between apostrophes. -/
theorem read_escape_quotes_apostrophe {text : String} (h : NulFree text)
    (hmem : apostrophe ∈ text.toList) (rest : List Char) :
    ∃ before behind, apostrophe ∉ before ∧
      singleQuoted.read ((escape_quotes text).toList ++ rest) =
        some (before, behind) := by
  obtain ⟨before, behind, htext, hbefore⟩ := List.eq_append_cons_of_mem hmem
  refine ⟨before, escaped NeedsBackslash behind ++ rest, hbefore, ?_⟩
  rw [escape_quotes_toList, htext]
  apply LiteralSyntax.read_escaped_of_quote (L := singleQuoted)
    rEscape_of_needsBackslash (Or.inr rfl) (by decide)
  intro c hc
  refine Or.inr ⟨?_, decide_eq_true (h c ?_)⟩
  · rintro rfl
    exact hbefore hc
  · rw [htext]
    exact List.mem_append_left _ hc

/-- R reads the call as it is meant if the name has no apostrophe, and
otherwise takes another name for the file. -/
theorem sweaveFile_readAs_iff {name : String} (h : NulFree name) :
    (sweaveFile name).ReadAs (codePieces "Sweave(".toList ++
        .literal ("../" ++ name).toList :: encodingPieces) ↔
      apostrophe ∉ name.toList := by
  have hfile : NulFree ("../" ++ name) := NulFree.append (by decide) h
  change Reads rOpens (String.toList _) _ ↔ _
  rw [sweaveFile_toList, reads_code_literal apostrophe_mem (by decide)]
  constructor
  · rintro ⟨behind, hread, -⟩ hmem
    have hinside : apostrophe ∈ ("../" ++ name).toList := by
      rw [String.toList_append]
      exact List.mem_append_right _ hmem
    obtain ⟨before, behind', hbefore, hread'⟩ :=
      read_escape_quotes_apostrophe hfile hinside
        (apostrophe :: ", encoding='UTF-8')".toList)
    have hsame := Option.some.inj (hread'.symm.trans hread)
    rw [(Prod.mk.inj hsame).1] at hbefore
    exact hbefore hinside
  · intro hnot
    have hinside : apostrophe ∉ ("../" ++ name).toList := by
      rw [String.toList_append, List.mem_append]
      exact not_or.mpr ⟨by decide, hnot⟩
    exact ⟨_, read_escape_quotes (by decide) hfile (Or.inr hinside) _,
      reads_encoding⟩

/-- The commands of `executeSweave` are read as they are meant exactly if the
file name has no apostrophe. -/
theorem sweaveReads_iff {tmpDir name : String} (htmp : IsTemporary tmpDir)
    (hname : IsSweaveName name) :
    SweaveReads tmpDir name ↔ apostrophe ∉ name.toList := by
  have hscratch : NulFree (append tmpDir ".rc2sw") := by
    rw [htmp.append_eq (by decide)]
    exact (htmp.nulFree.append (by decide)).append (by decide)
  constructor
  · intro h
    exact (sweaveFile_readAs_iff hname.nulFree).mp h.sweave
  · intro hnot
    refine ⟨(sweaveFile_readAs_iff hname.nulFree).mpr hnot,
      changeDirectory_readAs htmp.scratch_plainText hscratch, ?_⟩
    rw [htmp.parentPath_scratch]
    exact changeDirectory_readAs htmp.plainText htmp.nulFree

theorem sweaveReads_report : SweaveReads "/tmp/4f" "report.Rnw" :=
  (sweaveReads_iff ⟨"4f", by decide, rfl⟩
    ⟨by decide, by decide, by decide⟩).mpr (by decide)

/-- A file of this name runs `q()`: the apostrophe ends the literal, and what
follows is code. -/
theorem sweaveReads_fails_on_apostrophe :
    ¬∀ tmpDir name, IsTemporary tmpDir → IsSweaveName name →
      SweaveReads tmpDir name := by
  intro h
  have hreads := (h "/tmp/4f" "a');q();c('.Rnw" ⟨"4f", by decide, rfl⟩
    ⟨by decide, by decide, by decide⟩).sweave
  have hnot := (sweaveFile_readAs_iff (by decide)).mp hreads
  exact hnot (by decide)

end Rc2Compute.Session
