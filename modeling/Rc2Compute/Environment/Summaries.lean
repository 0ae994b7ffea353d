import Rc2Compute.Environment.Visits

/-!
# Summaries

When the summaries describe the objects they are added to.  A summary is
computed by evaluating the name of the object in the global environment,
whatever the object has that name in, and the children of a list have none.
The result is read even if there is none.
-/

namespace Rc2Compute.Environment

/-! ## Names R reads -/

/-- R's reserved words. -/
def reservedWords : List String :=
  ["if", "else", "repeat", "while", "function", "for", "next", "break", "in",
    "TRUE", "FALSE", "NULL", "Inf", "NaN", "NA", "NA_integer_", "NA_real_",
    "NA_complex_", "NA_character_", "..."]

def isNameChar (c : Char) : Bool :=
  c.isAlphanum || c = '.' || c = '_'

/-- `..1` and so on. -/
def isDotDotNumber : List Char → Bool
  | '.' :: '.' :: digits => digits.all Char.isDigit
  | _ => false

/-- The syntactic names of R, with the letters of ASCII: texts that are read
as the variable of that name. -/
def isSyntacticName (text : String) : Bool :=
  (match text.toList with
    | [] => false
    | '.' :: rest =>
        !(rest.head?.any Char.isDigit) && rest.all isNameChar
    | first :: rest => first.isAlpha && rest.all isNameChar) &&
  text ∉ reservedWords && !isDotDotNumber text.toList

/-- How R reads texts as expressions in the global environment.  An empty text
is no expression.  A syntactic name is the variable of that name, in the
global environment or else in an attached package. -/
structure Denotation (heap : Heap) (globalEnv : SEXP)
    (attached denotes : String → Option SEXP) : Prop where
  empty : denotes "" = none
  syntacticName : ∀ text, isSyntacticName text = true →
    denotes text = ((heap.bindings globalEnv).lookup text).or (attached text)

/-! ## Evaluations -/

/-- The expression that has been evaluated denotes the object. -/
def Describes (denotes : String → Option SEXP) (e : Evaluation) : Prop :=
  ∃ text, e.command = "capture.output(str(" ++ text ++ "))" ∧
    denotes text = some e.object

/-- When the evaluation fails, no summary is added and nothing is read. -/
def UsedOnSuccess (R : Engine) (e : Evaluation) : Prop :=
  ∀ varName jobj, summaryCommand varName = e.command →
    R.parseEval e.command = none →
      Yields (addSummary R varName e.object jobj) jobj

section Summarising

variable (R : Engine) (heap : Heap) (fuel : ℕ) (env globalEnv : SEXP)
  (attached denotes : String → Option SEXP) (w : Watcher) (request : Request)

/-- The commands a request has evaluated. -/
def evaluated : List Evaluation :=
  (encode R heap fuel env request w).2.evaluations.drop w.evaluations.length

/-- The summaries describe the objects they are added to. -/
def SummariesDescribe : Prop :=
  ∀ e ∈ evaluated R heap fuel env w request,
    Describes denotes e ∧ UsedOnSuccess R e

/-- The name of a visited object, without quotes, stands for it: it is the
name of a variable that is bound to the object, or else another expression
with this value. -/
def Named (k : Visit) : Prop :=
  let text := StripQuotes k.1.varName
  if isSyntacticName text then
    ((heap.bindings globalEnv).lookup text).or (attached text) =
      some k.1.robj
  else text ≠ "" ∧ denotes text = some k.1.robj

/-- A visited object has a name that stands for it, and its command is
evaluated without an error. -/
structure Summarisable (k : Visit) : Prop where
  named : Named heap globalEnv attached denotes k
  evaluates : R.parseEval (summaryCommand k.1.varName) ≠ none

theorem evaluated_eq : evaluated R heap fuel env w request =
    evaluationsOf heap (visits R heap fuel env w request).2 := by
  rw [evaluated, (encode_follows R heap fuel env w request).2,
    List.drop_left]

theorem mem_evaluated {e : Evaluation} :
    e ∈ evaluated R heap fuel env w request ↔
      ∃ k ∈ (visits R heap fuel env w request).2,
        isSummarised heap k = true ∧ evaluationOf k = e := by
  rw [evaluated_eq, evaluationsOf, List.mem_map]
  simp only [List.mem_filter, and_assoc]

theorem command_injective {text text' : String}
    (h : "capture.output(str(" ++ text ++ "))" =
      "capture.output(str(" ++ text' ++ "))") : text = text' := by
  have hlist := congrArg String.toList h
  simp only [String.toList_append, List.append_cancel_left_eq,
    List.append_cancel_right_eq] at hlist
  exact String.toList_inj.mp hlist

theorem describes_iff (k : Visit) : Describes denotes (evaluationOf k) ↔
    denotes (StripQuotes k.1.varName) = some k.1.robj := by
  constructor
  · rintro ⟨text, hcommand, hdenotes⟩
    rw [command_injective hcommand]
    exact hdenotes
  · intro hdenotes
    exact ⟨StripQuotes k.1.varName, rfl, hdenotes⟩

theorem usedOnSuccess_iff (k : Visit) : UsedOnSuccess R (evaluationOf k) ↔
    R.parseEval (summaryCommand k.1.varName) ≠ none := by
  constructor
  · intro hused hnone
    have hyields := hused k.1.varName [] rfl hnone
    have hfailed := addSummary_failed R hnone k.1.robj []
    have happly := hyields.apply ⟨[], []⟩
    rw [evaluationOf, hfailed] at happly
    cases happly
  · intro hne varName jobj _ hnone
    exact absurd hnone hne

variable {R heap fuel env globalEnv attached denotes w request}

/-- A name stands for an object when R reads it so. -/
theorem named_iff (h : Denotation heap globalEnv attached denotes)
    (k : Visit) : Named heap globalEnv attached denotes k ↔
      denotes (StripQuotes k.1.varName) = some k.1.robj := by
  unfold Named
  dsimp only
  split
  next hname => rw [h.syntacticName _ hname]
  next =>
    apply and_iff_right_of_imp
    intro hdenotes hempty
    rw [hempty, h.empty] at hdenotes
    cases hdenotes

theorem summarisable_iff (h : Denotation heap globalEnv attached denotes)
    (k : Visit) : Summarisable R heap globalEnv attached denotes k ↔
      Describes denotes (evaluationOf k) ∧
        UsedOnSuccess R (evaluationOf k) := by
  rw [describes_iff, usedOnSuccess_iff, ← named_iff h]
  constructor
  · rintro ⟨hnamed, hevaluates⟩
    exact ⟨hnamed, hevaluates⟩
  · rintro ⟨hnamed, hevaluates⟩
    exact ⟨hnamed, hevaluates⟩

/-- An element of a list has no name. -/
theorem not_named_child (child : SEXP) (jobj : Fields) :
    ¬Named heap globalEnv attached denotes (childCall child, jobj) := by
  have hempty : StripQuotes "" = "" := by decide
  have hname : isSyntacticName "" = false := by decide
  unfold Named childCall
  dsimp only
  rw [hempty, hname]
  rintro ⟨hne, -⟩
  exact hne rfl

/-- A variable of the global environment is named by a syntactic name. -/
theorem named_of_bound {name : String} {s : SEXP}
    (hquotes : StripQuotes name = name) (hname : isSyntacticName name = true)
    (hbound : (heap.bindings globalEnv).lookup name = some s)
    (jobj : Fields) :
    Named heap globalEnv attached denotes
      (bindingCall heap globalEnv name, jobj) := by
  have hget : heap.get globalEnv name = s := by
    rw [Heap.get, hbound, Option.getD_some]
  unfold Named bindingCall
  dsimp only
  rw [hquotes, hname, if_pos rfl, hbound, hget, Option.some_or]

theorem summarisable_of_describe
    (h : Denotation heap globalEnv attached denotes)
    (hdescribe : SummariesDescribe R heap fuel env denotes w request)
    {k : Visit} (hk : k ∈ (visits R heap fuel env w request).2)
    (hsummarised : isSummarised heap k = true) :
    Summarisable R heap globalEnv attached denotes k := by
  apply (summarisable_iff h k).mpr
  exact hdescribe _ ((mem_evaluated R heap fuel env w request).mpr
    ⟨k, hk, hsummarised, rfl⟩)

/-- The summaries describe the objects they are added to exactly when every
object that gets one has a name that stands for it and a command that is
evaluated without an error. -/
theorem summaries_describe_iff
    (h : Denotation heap globalEnv attached denotes) :
    SummariesDescribe R heap fuel env denotes w request ↔
      ∀ k ∈ (visits R heap fuel env w request).2,
        isSummarised heap k = true →
          Summarisable R heap globalEnv attached denotes k := by
  constructor
  · intro hdescribe k hk hsummarised
    exact summarisable_of_describe h hdescribe hk hsummarised
  · intro hall e he
    obtain ⟨k, hk, hsummarised, rfl⟩ :=
      (mem_evaluated R heap fuel env w request).mp he
    exact (summarisable_iff h k).mp (hall k hk hsummarised)

end Summarising

/-! ## Lists -/

/-- The global environment at address 1, with `x` bound to a list at 2 of the
object at 3. -/
def listHeap (child : RData) : Heap where
  objects := [.plain .null, .plain (.environment [("x", 2)]),
    .plain (.list [3]), .plain child]

/-- R with no package attached: other texts than names are no expressions. -/
def variablesOnly (heap : Heap) (globalEnv : SEXP) (text : String) :
    Option SEXP :=
  if isSyntacticName text then (heap.bindings globalEnv).lookup text
  else none

theorem denotation_variablesOnly (heap : Heap) (globalEnv : SEXP) :
    Denotation heap globalEnv (fun _ => none)
      (variablesOnly heap globalEnv) where
  empty := by
    have hname : isSyntacticName "" = false := by decide
    rw [variablesOnly, hname]
    rfl
  syntacticName := by
    intro text hname
    rw [variablesOnly, if_pos hname, Option.or_none]

/-- R where `str` fails without an argument. -/
def strEngine : Engine :=
  { bareEngine with
    parseEval := fun command =>
      if command = "capture.output(str())" then none
      else some (.string ["List of 1"]) }

/-- A list of a number. -/
theorem summaries_describe_iff_number :
    SummariesDescribe strEngine (listHeap (.real [.finite 1])) 2 1
      (variablesOnly (listHeap (.real [.finite 1])) 1) ⟨[], []⟩
      (.value "x") := by
  apply (summaries_describe_iff (denotation_variablesOnly _ 1)).mpr
  have hvisits : visits strEngine (listHeap (.real [.finite 1])) 2 1 ⟨[], []⟩
      (.value "x") = (.returned, [(childCall 3, []),
        (bindingCall (listHeap (.real [.finite 1])) 1 "x", [])]) := by
    rfl
  rw [hvisits]
  intro k hk hsummarised
  rcases List.mem_cons.mp hk with rfl | hk
  · cases hsummarised
  · obtain rfl := List.mem_singleton.mp hk
    constructor
    · exact named_of_bound (by decide) (by decide) rfl []
    · decide

theorem summaries_describe_fails_on_child :
    ¬SummariesDescribe strEngine (listHeap (.list [])) 2 1
      (variablesOnly (listHeap (.list [])) 1) ⟨[], []⟩ (.value "x") := by
  intro hdescribe
  have hvisits : visits strEngine (listHeap (.list [])) 2 1 ⟨[], []⟩
      (.value "x") = (.stopped, [(childCall 3, [])]) := by
    rfl
  have hchild := summarisable_of_describe (denotation_variablesOnly _ 1)
    hdescribe (k := (childCall 3, []))
    (by rw [hvisits]; exact List.mem_singleton_self _) rfl
  exact not_named_child 3 [] hchild.named

end Rc2Compute.Environment
