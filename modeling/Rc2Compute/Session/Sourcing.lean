import Rc2Compute.Session.Calls
import Mathlib.Data.List.Infix

/-!
# The value `source` prints

What the client receives of the output of an R file.  Everything from the
first `$value` line on is taken for the value `source` returns, also when the
file has printed a list with such a component itself.
-/

namespace Rc2Compute.Session

variable {σ ν : Type}

/-- The text `source` prints before its value. -/
def valueText : String :=
  "\n$value\n"

/-! ## The first marker -/

/-- The marker begins and ends with the only line ends in it. -/
theorem eq_of_prefix_valueMarker {v : List Char}
    (h : v ++ ['\n'] <+: valueMarker) : v = [] ∨ v ++ ['\n'] = valueMarker := by
  have hends : ∀ p ∈ valueMarker.inits, p.getLast? = some '\n' →
      p = ['\n'] ∨ p = valueMarker := by
    decide
  rcases hends _ ((List.mem_inits _ _).mpr h) List.getLast?_concat with
    hone | hall
  · exact .inl (List.append_left_eq_self.mp hone)
  · exact .inr hall

/-- A marker before another one shares at most a line end with it. -/
theorem prefix_of_overlap {v t : List Char} (hne : v ≠ [])
    (h : valueMarker <+: v ++ (valueMarker ++ t)) :
    valueMarker <+: v ++ ['\n'] := by
  have hend : v ++ ['\n'] <+: v ++ (valueMarker ++ t) :=
    (List.prefix_append_right_inj v).mpr ⟨_, rfl⟩
  rcases List.prefix_or_prefix_of_prefix h hend with hmarker | hinside
  · exact hmarker
  · rcases eq_of_prefix_valueMarker hinside with hnil | hall
    · exact absurd hnil hne
    · exact hall ▸ List.prefix_refl _

theorem dropValue_of_prefix {text : List Char} (h : valueMarker <+: text) :
    dropValue text = ['\n'] := by
  match text with
  | [] =>
      exact absurd (List.prefix_nil.mp h) (by decide)
  | c :: rest =>
      rw [dropValue, if_pos (List.isPrefixOf_iff_prefix.mpr h)]

/-- Nothing before the first marker is lost. -/
theorem dropValue_of_absent {u : List Char}
    (h : ¬valueMarker <:+: u ++ ['\n']) (t : List Char) :
    dropValue (u ++ (valueMarker ++ t)) = u ++ ['\n'] := by
  induction u with
  | nil => exact dropValue_of_prefix (List.prefix_append _ _)
  | cons c u ih =>
      have hfirst : ¬valueMarker.isPrefixOf (c :: (u ++ (valueMarker ++ t))) := by
        intro hstart
        have hoverlap := prefix_of_overlap (List.cons_ne_nil c u)
          (List.isPrefixOf_iff_prefix.mp hstart)
        exact h hoverlap.isInfix
      have hrest : ¬valueMarker <:+: u ++ ['\n'] := by
        intro hinfix
        exact h (List.infix_cons hinfix)
      rw [List.cons_append, dropValue, if_neg hfirst, ih hrest,
        List.cons_append]

/-- Nothing behind a marker is kept. -/
theorem length_dropValue_le (a b : List Char) :
    (dropValue (a ++ (valueMarker ++ b))).length ≤ a.length + 1 := by
  induction a with
  | nil =>
      rw [List.nil_append, dropValue_of_prefix (List.prefix_append _ _)]
      exact Nat.le_refl _
  | cons c a ih =>
      rw [List.cons_append, dropValue]
      split
      · exact Nat.succ_le_succ (Nat.zero_le _)
      · exact Nat.succ_le_succ ih

/-- The text before the value is kept exactly when there is no marker in
it. -/
theorem dropValue_eq_iff (u t : List Char) :
    dropValue (u ++ (valueMarker ++ t)) = u ++ ['\n'] ↔
      ¬valueMarker <:+: u ++ ['\n'] := by
  constructor
  · rintro heq ⟨a, b, hsplit⟩
    have htext : u ++ (valueMarker ++ t) =
        a ++ (valueMarker ++ (b ++ (valueMarker.tail ++ t))) := by
      calc
        u ++ (valueMarker ++ t) = (u ++ ['\n']) ++ (valueMarker.tail ++ t) := by
          rw [List.append_assoc]
          rfl
        _ = a ++ (valueMarker ++ (b ++ (valueMarker.tail ++ t))) := by
          rw [← hsplit, List.append_assoc, List.append_assoc]
    have hkept := length_dropValue_le a (b ++ (valueMarker.tail ++ t))
    rw [← htext, heq, ← hsplit, List.length_append, List.length_append] at hkept
    have hmarker : valueMarker.length = 8 := rfl
    omega
  · intro h
    exact dropValue_of_absent h t

/-! ## The message -/

/-- The string sent for the output `u`, followed by the value `t`, is `u` and
a line end. -/
def KeepsOutput (s : RSession σ ν) (u t : String) : Prop :=
  formatStringAsJson s (u ++ valueText ++ t) false .console =
    .results (u ++ "\n") false (queryIdField s.currentQueryId) .console

theorem keepsOutput_iff_dropValue {s : RSession σ ν}
    (hsource : s.sourceInProgress = true) (u t : String) :
    KeepsOutput s u t ↔
      dropValue (u.toList ++ (valueMarker ++ t.toList)) = u.toList ++ ['\n'] := by
  have htext : (u ++ valueText ++ t).toList =
      u.toList ++ (valueMarker ++ t.toList) := by
    rw [String.toList_append, String.toList_append, List.append_assoc]
    rfl
  have hend : (u ++ "\n").toList = u.toList ++ ['\n'] :=
    String.toList_append
  have hstring : String.ofList (dropValue (u ++ valueText ++ t).toList) =
      u ++ "\n" ↔ dropValue (u ++ valueText ++ t).toList =
        u.toList ++ ['\n'] := by
    rw [← String.toList_inj, String.toList_ofList, hend]
  rw [← htext, ← hstring, KeepsOutput, formatStringAsJson, hsource, if_pos rfl,
    Message.results.injEq]
  constructor
  · rintro ⟨heq, -⟩
    exact heq
  · intro heq
    exact ⟨heq, rfl, rfl, rfl⟩

/-- While a file is sourced its output is kept exactly when the marker of the
value does not occur in it. -/
theorem keepsOutput_iff {s : RSession σ ν} (hsource : s.sourceInProgress = true)
    (u t : String) :
    KeepsOutput s u t ↔ ¬valueMarker <:+: (u ++ "\n").toList := by
  rw [keepsOutput_iff_dropValue hsource, dropValue_eq_iff, String.toList_append]
  rfl

/-- A session in which a file is sourced. -/
def sourcingSession : RSession ℕ Unit :=
  (RSession.fresh 0).opened.sourcing true

theorem keepsOutput_sum :
    KeepsOutput sourcingSession "\n> 1 + 1\n[1] 2" "[1] 2\n" :=
  (keepsOutput_iff rfl _ _).mpr (by decide)

/-- A list with a component named `value` is lost. -/
theorem keepsOutput_fails_on_list :
    ¬KeepsOutput sourcingSession "\n> list(value = 1)\n$value\n[1] 1\n"
      "[1] 1\n" := by
  intro hkeeps
  have hdropped := (keepsOutput_iff_dropValue rfl _ _).mp hkeeps
  revert hdropped
  decide

end Rc2Compute.Session
