import Rc2Compute.Format.Printing
import Rc2Compute.Format.Streams

/-!
# Reading printed documents

A document that has been printed is parsed again.  Its structure, its keys and
its strings come back as they were, and its numbers as the doubles nearest to
what has been printed.  An integer that a double holds exactly comes back as
it was.
-/

namespace Rc2Compute.Format

/-! ## What comes back -/

section reread

mutual

/-- What parsing gives of a printed document.  An infinite double and NaN have
no literal. -/
def reread : BasicJson → Except Failure BasicJson
  | .null => .ok .null
  | .boolean b => .ok (.boolean b)
  | .number_integer n => numberValue (Double.round (n < 0) n.natAbs)
  | .number_float (.finite negative q) =>
      numberValue (Double.round negative (printed q))
  | .number_float (.infinite _) => .error .undefined
  | .number_float .nan => .error .undefined
  | .string s => .ok (.string s)
  | .array elems => (rereadElements elems).map .array
  | .object fields => (rereadFields fields).map .object

def rereadElements : List BasicJson → Except Failure (List BasicJson)
  | [] => .ok []
  | elem :: elems => do
      let v ← reread elem
      let vs ← rereadElements elems
      return v :: vs

def rereadFields : List (Bytes × BasicJson) →
    Except Failure (List (Bytes × BasicJson))
  | [] => .ok []
  | (key, value) :: fields => do
      let v ← reread value
      let vs ← rereadFields fields
      return (key, v) :: vs

end

/-- An integer that parsing gives back. -/
def ExactInteger (n : ℤ) : Prop :=
  -2 ^ 63 ≤ n ∧ n < 2 ^ 63 ∧ Double.Representable n.natAbs

/-- A double that 15 significant digits identify, and that parsing does not
take for an integer. -/
def ExactFloat : Double → Prop
  | .finite negative q =>
      Double.round negative (printed q) = .finite negative q ∧
        ⌊q⌋₊ < 2 ^ 63 ∧ (q.den = 1 → negative = true ∧ q = 0)
  | _ => False

/-- A number that comes back as it was. -/
def ExactNumber : BasicJson → Prop
  | .number_integer n => ExactInteger n
  | .number_float x => ExactFloat x
  | _ => True

/-- All numbers of a document come back as they were. -/
def Exact (v : BasicJson) : Prop := Everywhere ExactNumber v

theorem numberValue_natCast {n : ℤ} (hlo : -2 ^ 63 ≤ n) (hhi : n < 2 ^ 63) :
    numberValue (.finite (n < 0) n.natAbs) = .ok (.number_integer n) := by
  have hint : (if decide (n < 0) = true then -((n.natAbs : ℕ) : ℤ)
      else (n.natAbs : ℕ)) = n := by
    simp only [decide_eq_true_eq]
    split <;> omega
  simp only [numberValue, Nat.floor_natCast, hint]
  rw [if_neg (by omega), if_pos]
  refine ⟨trivial, ?_⟩
  rintro ⟨hneg, hzero⟩
  have hneg' := of_decide_eq_true hneg
  have : n.natAbs = 0 := by exact_mod_cast hzero
  omega

theorem ExactInteger.reread_eq {n : ℤ} (h : ExactInteger n) :
    reread (.number_integer n) = .ok (.number_integer n) := by
  obtain ⟨hlo, hhi, hrep⟩ := h
  rw [reread, Double.round_of_representable hrep]
  exact numberValue_natCast hlo hhi

theorem den_eq_one_of_floor {q : ℚ≥0} (h : (⌊q⌋₊ : ℚ≥0) = q) : q.den = 1 := by
  rw [← h]
  exact NNRat.den_natCast _

theorem ExactFloat.reread_eq {x : Double} (h : ExactFloat x) :
    reread (.number_float x) = .ok (.number_float x) := by
  cases x with
  | finite negative q =>
      obtain ⟨hround, hfloor, hwhole⟩ := h
      rw [reread, hround]
      simp only [numberValue]
      rw [if_neg, if_neg]
      · rintro ⟨heq, hne⟩
        exact hne (hwhole (den_eq_one_of_floor heq))
      · split <;> omega
  | infinite | nan => exact h.elim

mutual

theorem reread_of_exact : ∀ {v : BasicJson}, Everywhere ExactNumber v →
    reread v = .ok v
  | .null, _ | .boolean _, _ | .string _, _ => by rw [reread]
  | .number_integer _, h => ExactInteger.reread_eq (by rwa [Everywhere] at h)
  | .number_float _, h => ExactFloat.reread_eq (by rwa [Everywhere] at h)
  | .array _, h => by
      rw [Everywhere] at h
      rw [reread, rereadElements_of_exact h.2]
      rfl
  | .object _, h => by
      rw [Everywhere] at h
      rw [reread, rereadFields_of_exact h.2]
      rfl

theorem rereadElements_of_exact : ∀ {elems : List BasicJson},
    EverywhereIn ExactNumber elems → rereadElements elems = .ok elems
  | [], _ => by rw [rereadElements]
  | _ :: _, h => by
      rw [EverywhereIn] at h
      rw [rereadElements, reread_of_exact h.1, bind_ok,
        rereadElements_of_exact h.2]
      rfl

theorem rereadFields_of_exact : ∀ {fields : List (Bytes × BasicJson)},
    EverywhereOf ExactNumber fields → rereadFields fields = .ok fields
  | [], _ => by rw [rereadFields]
  | (_, _) :: _, h => by
      rw [EverywhereOf] at h
      rw [rereadFields, reread_of_exact h.1, bind_ok,
        rereadFields_of_exact h.2]
      rfl

end

end reread

/-! ## Assigning fields in order -/

section fields

/-- All keys of the fields come before a key. -/
def Before (fields : List (Bytes × BasicJson)) (key : Bytes) : Prop :=
  ∀ field ∈ fields, field.1 < key

theorem setField_of_before {fields : List (Bytes × BasicJson)} {key : Bytes}
    (h : Before fields key) (value : BasicJson) :
    setField key value fields = fields ++ [(key, value)] := by
  induction fields with
  | nil => rfl
  | cons field fields ih =>
      obtain ⟨k, v⟩ := field
      have hk : k < key := h (k, v) List.mem_cons_self
      rw [setField, if_neg (List.lt_asymm hk), if_neg,
        ih fun f hf => h f (List.mem_cons_of_mem _ hf)]
      · rfl
      · rintro rfl
        exact List.lt_irrefl _ hk

/-- Fields whose keys are in order are assigned one behind the other. -/
theorem assign_of_sorted {fields more : List (Bytes × BasicJson)}
    (hbefore : ∀ field ∈ more, Before fields field.1)
    (hsorted : (more.map Prod.fst).Pairwise (· < ·)) :
    assign fields more = fields ++ more := by
  induction more generalizing fields with
  | nil => exact (List.append_nil _).symm
  | cons field more ih =>
      rw [List.map_cons, List.pairwise_cons] at hsorted
      have hlast : ∀ f ∈ more, field.1 < f.1 := fun f hf =>
        hsorted.1 f.1 (List.mem_map_of_mem hf)
      have hstep : assign fields (field :: more) =
          assign (setField field.1 field.2 fields) more := rfl
      rw [hstep, setField_of_before (hbefore field List.mem_cons_self),
        ih _ hsorted.2, List.append_assoc]
      · rfl
      · intro f hf f' hf'
        rcases List.mem_append.mp hf' with hf' | hf'
        · exact hbefore f (List.mem_cons_of_mem _ hf) f' hf'
        · rw [List.mem_singleton] at hf'
          rw [hf']
          exact hlast f hf

theorem assign_nil_of_sorted {more : List (Bytes × BasicJson)}
    (hsorted : (more.map Prod.fst).Pairwise (· < ·)) :
    assign [] more = more := by
  rw [assign_of_sorted (fun _ _ _ h => absurd h List.not_mem_nil) hsorted,
    List.nil_append]

/-- The keys come back as they were. -/
theorem rereadFields_keys {fields more : List (Bytes × BasicJson)}
    (h : rereadFields fields = .ok more) :
    more.map Prod.fst = fields.map Prod.fst := by
  induction fields generalizing more with
  | nil =>
      rw [rereadFields] at h
      cases h
      rfl
  | cons field fields ih =>
      obtain ⟨key, value⟩ := field
      rw [rereadFields] at h
      cases hv : reread value with
      | error e =>
          rw [hv] at h
          cases h
      | ok v =>
          rw [hv, bind_ok] at h
          cases hvs : rereadFields fields with
          | error e =>
              rw [hvs] at h
              cases h
          | ok vs =>
              rw [hvs] at h
              cases h
              rw [List.map_cons, List.map_cons, ih hvs]

end fields

/-! ## A printed document is derived -/

section written

/-- What stands behind a value within a document. -/
def Follows (rest : Bytes) : Prop :=
  ∀ c, rest.head? = some c → c = byte ',' ∨ c = byte ']' ∨ c = byte '}'

theorem follows_cons {c : UInt8}
    (h : c = byte ',' ∨ c = byte ']' ∨ c = byte '}') (rest : Bytes) :
    Follows (c :: rest) := by
  rintro d hd
  cases hd
  exact h

theorem Follows.ends {rest : Bytes} (h : Follows rest) : Ends rest := by
  intro c hc
  rcases h c hc with rfl | rfl | rfl <;> rfl

/-- The lexemes of a text derive a phrase, and behind them stands what follows
the text. -/
def Written (text : Bytes) (phrase : Phrase) : Prop :=
  ∀ rest q, Follows rest → get_token stringLexer rest = .ok q →
    ∃ p xs, get_token stringLexer (text ++ rest) = .ok p ∧
      Reads stringLexer p xs q ∧ Derives xs phrase

/-- A text that is one token. -/
def OneToken (text : Bytes) (token : LexToken) : Prop :=
  ∀ rest, Follows rest →
    stringLexer.scan (text ++ rest) = some (token, rest)

theorem written_of_token {text : Bytes} {token : LexToken} {phrase : Phrase}
    (h : OneToken text token) (hkind : token.kind ≠ .end_of_input)
    (hderives : ∀ rest, Follows rest → Derives [⟨token, rest⟩] phrase) :
    Written text phrase := by
  intro rest q hrest hq
  refine ⟨⟨token, rest⟩, _, ?_, .single hkind hq, hderives rest hrest⟩
  rw [get_token, h rest hrest]

/-- The tokens of one character. -/
def punctuation : List (UInt8 × token_type) :=
  [(byte '[', .begin_array), (byte ']', .end_array),
    (byte '{', .begin_object), (byte '}', .end_object),
    (byte ',', .value_separator), (byte ':', .name_separator)]

theorem comma_mem : (byte ',', token_type.value_separator) ∈ punctuation := by
  decide

theorem colon_mem : (byte ':', token_type.name_separator) ∈ punctuation := by
  decide

theorem bracket_mem : (byte '[', token_type.begin_array) ∈ punctuation ∧
    (byte ']', token_type.end_array) ∈ punctuation := by
  decide

theorem brace_mem : (byte '{', token_type.begin_object) ∈ punctuation ∧
    (byte '}', token_type.end_object) ∈ punctuation := by
  decide

theorem scan_punctuation {c : UInt8} {kind : token_type}
    (h : (c, kind) ∈ punctuation) (rest : Bytes) :
    get_token stringLexer (c :: rest) = .ok ⟨⟨kind, [c]⟩, rest⟩ := by
  have hmove : move .p0 c = .accept kind := by
    revert h
    simp only [punctuation, List.mem_cons, Prod.mk.injEq, List.not_mem_nil,
      or_false]
    rintro (⟨rfl, rfl⟩ | ⟨rfl, rfl⟩ | ⟨rfl, rfl⟩ | ⟨rfl, rfl⟩ | ⟨rfl, rfl⟩ |
      ⟨rfl, rfl⟩) <;> rfl
  have hscan : stringLexer.scan (c :: rest) = some (⟨kind, [c]⟩, rest) :=
    @Scanner.scan_accept _ _ _ scanner [] _ .p0 _ rfl hmove rest
  rw [get_token, hscan]

/-- One character in front of a text is one more lexeme. -/
theorem reads_punctuation {c : UInt8} {kind : token_type}
    (h : (c, kind) ∈ punctuation) {text : Bytes} {q r : Parser Bytes}
    {xs : List Lexeme} (hq : get_token stringLexer text = .ok q)
    (hreads : Reads stringLexer q xs r) :
    ∃ p x, get_token stringLexer (c :: text) = .ok p ∧ x.kind = kind ∧
      Reads stringLexer p (x :: xs) r := by
  refine ⟨_, _, scan_punctuation h text, rfl, .cons ?_ hq hreads⟩
  rintro hkind
  have hkind' : kind = .end_of_input := hkind
  rw [hkind'] at h
  simp [punctuation] at h

theorem written_literal (text : Bytes) {kind : token_type} {l : Label}
    {c : UInt8} {v : BasicJson} (hroute : scanner.route .p0 text = some l)
    (hmove : move l c = .accept kind) (hkind : kind ≠ .end_of_input)
    (hderives : ∀ x : Lexeme, x.kind = kind → Derives [x] (.value v)) :
    Written (text ++ [c]) (.value v) := by
  have htoken : OneToken (text ++ [c]) ⟨kind, text ++ [c]⟩ := by
    intro rest _
    rw [List.append_assoc, List.singleton_append]
    exact Scanner.scan_accept (S := scanner) hroute hmove rest
  exact written_of_token htoken hkind fun rest _ => hderives _ rfl

theorem written_null : Written (ascii "null") (.value .null) :=
  written_literal (ascii "nul") (l := .p61) rfl rfl (by decide)
    fun _ h => .null h

theorem written_true : Written (ascii "true") (.value (.boolean true)) :=
  written_literal (ascii "tru") (l := .p57) rfl rfl (by decide)
    fun _ h => .yes h

theorem written_false : Written (ascii "false") (.value (.boolean false)) :=
  written_literal (ascii "fals") (l := .p53) rfl rfl (by decide)
    fun _ h => .no h

/-- A string literal and its value. -/
theorem oneToken_string (s : Bytes) :
    OneToken (byte '"' :: (escape_string s ++ [byte '"']))
      ⟨.value_string, byte '"' :: (escape_string s ++ [byte '"'])⟩ := by
  intro rest _
  rw [List.cons_append, List.append_assoc, List.singleton_append]
  exact (escape_string_body s).scan rest

theorem get_string_escaped (kind : token_type) (s : Bytes) :
    get_string ⟨kind, byte '"' :: (escape_string s ++ [byte '"'])⟩ =
      .ok s := by
  rw [get_string, List.tail_cons, List.dropLast_concat,
    unescape_escape_string]

theorem written_string (s : Bytes) :
    Written (byte '"' :: (escape_string s ++ [byte '"']))
      (.value (.string s)) :=
  written_of_token (oneToken_string s) nofun fun _ _ =>
    .string rfl (get_string_escaped _ s)

theorem written_number {text : Bytes} {negative : Bool} {q : ℚ≥0}
    {v : BasicJson} (h : NumberLiteral text negative q)
    (hv : numberValue (Double.round negative q) = .ok v) :
    Written text (.value v) := by
  have htoken : OneToken text ⟨.value_number, text⟩ :=
    fun rest hrest => h.scan hrest.ends
  refine written_of_token htoken nofun fun rest hrest => ?_
  have hnumber : Lexeme.number ⟨⟨.value_number, text⟩, rest⟩ =
      Double.round negative q := by
    rw [Lexeme.number, get_number_of_ends hrest.ends, get_number,
      List.append_nil, h.strtod_eq]
    rfl
  refine .number rfl ?_ (by rw [hnumber, hv])
  rw [hnumber, Double.round]
  split <;> exact Double.noConfusion

/-! ### Arrays and objects -/

theorem written_element {text : Bytes} {v : BasicJson}
    (h : Written text (.value v)) : Written text (.elements [v]) := by
  intro rest q hrest hq
  obtain ⟨p, xs, hp, hreads, hv⟩ := h rest q hrest hq
  exact ⟨p, xs, hp, hreads, .element hv⟩

theorem written_elements {text more : Bytes} {v : BasicJson}
    {vs : List BasicJson} (h : Written text (.value v))
    (hmore : Written more (.elements vs)) :
    Written (text ++ byte ',' :: more) (.elements (v :: vs)) := by
  intro rest q hrest hq
  obtain ⟨p₁, ys, hp₁, hreads₁, hvs⟩ := hmore rest q hrest hq
  obtain ⟨p₂, s, hp₂, hs, hreads₂⟩ :=
    reads_punctuation comma_mem hp₁ hreads₁
  obtain ⟨p, xs, hp, hreads, hv⟩ := h (byte ',' :: (more ++ rest)) p₂
    (follows_cons (.inl rfl) _) hp₂
  refine ⟨p, _, ?_, hreads.append hreads₂, .elements hv hs hvs⟩
  rw [List.append_assoc]
  exact hp

/-- A phrase between brackets. -/
theorem written_brackets {o c : UInt8} {opens closes : token_type}
    (ho : (o, opens) ∈ punctuation) (hc : (c, closes) ∈ punctuation)
    (hclose : c = byte ',' ∨ c = byte ']' ∨ c = byte '}') {text : Bytes}
    {phrase : Phrase} {v : BasicJson} (h : Written text phrase)
    (hv : ∀ {x y : Lexeme} {xs : List Lexeme}, x.kind = opens →
      Derives xs phrase → y.kind = closes →
      Derives (x :: (xs ++ [y])) (.value v)) :
    Written (o :: (text ++ [c])) (.value v) := by
  intro rest q hrest hq
  obtain ⟨p₁, y, hp₁, hy, hreads₁⟩ :=
    reads_punctuation hc hq (.nil q)
  obtain ⟨p₂, xs, hp₂, hreads₂, hphrase⟩ := h (c :: rest) p₁
    (follows_cons hclose rest) hp₁
  obtain ⟨p, x, hp, hx, hreads⟩ :=
    reads_punctuation ho hp₂ (hreads₂.append hreads₁)
  refine ⟨p, _, ?_, hreads, hv hx hphrase hy⟩
  rw [List.cons_append, List.append_assoc]
  exact hp

theorem written_emptyBrackets {o c : UInt8} {opens closes : token_type}
    (ho : (o, opens) ∈ punctuation) (hc : (c, closes) ∈ punctuation)
    {v : BasicJson} (hv : ∀ {x y : Lexeme}, x.kind = opens →
      y.kind = closes → Derives [x, y] (.value v)) :
    Written [o, c] (.value v) := by
  intro rest q hrest hq
  obtain ⟨p₁, y, hp₁, hy, hreads₁⟩ := reads_punctuation hc hq (.nil q)
  obtain ⟨p, x, hp, hx, hreads⟩ := reads_punctuation ho hp₁ hreads₁
  exact ⟨p, _, hp, hreads, hv hx hy⟩

/-- A key, the colon and the text behind them. -/
theorem reads_key (key : Bytes) {text : Bytes} {q r : Parser Bytes}
    {xs : List Lexeme} (hq : get_token stringLexer text = .ok q)
    (hreads : Reads stringLexer q xs r) :
    ∃ p k c, get_token stringLexer
        (byte '"' :: (escape_string key ++ ascii "\":") ++ text) = .ok p ∧
      k.kind = .value_string ∧ get_string k.token = .ok key ∧
      c.kind = .name_separator ∧ Reads stringLexer p (k :: c :: xs) r := by
  obtain ⟨p₁, c, hp₁, hc, hreads₁⟩ :=
    reads_punctuation colon_mem hq hreads
  have hscan := (escape_string_body key).scan (byte ':' :: text)
  have hp : get_token stringLexer
      (byte '"' :: (escape_string key ++ ascii "\":") ++ text) =
        .ok ⟨⟨.value_string, byte '"' :: (escape_string key ++ [byte '"'])⟩,
          byte ':' :: text⟩ := by
    rw [List.cons_append, List.append_assoc, get_token,
      show ascii "\":" ++ text = byte '"' :: byte ':' :: text from rfl, hscan]
  exact ⟨_, _, c, hp, rfl, get_string_escaped _ key, hc,
    .cons token_type.noConfusion hp₁ hreads₁⟩

theorem written_member {text : Bytes} {v : BasicJson} (key : Bytes)
    (h : Written text (.value v)) :
    Written (byte '"' :: (escape_string key ++ ascii "\":") ++ text)
      (.members [(key, v)]) := by
  intro rest q hrest hq
  obtain ⟨p₁, xs, hp₁, hreads₁, hv⟩ := h rest q hrest hq
  obtain ⟨p, k, c, hp, hk, hkey, hc, hreads⟩ := reads_key key hp₁ hreads₁
  refine ⟨p, _, ?_, hreads, .member hk hkey hc hv⟩
  rw [List.append_assoc]
  exact hp

theorem written_members {text more : Bytes} {v : BasicJson}
    {fields : List (Bytes × BasicJson)} (key : Bytes)
    (h : Written text (.value v)) (hmore : Written more (.members fields)) :
    Written (byte '"' :: (escape_string key ++ ascii "\":") ++
        (text ++ byte ',' :: more))
      (.members ((key, v) :: fields)) := by
  intro rest q hrest hq
  obtain ⟨p₁, ys, hp₁, hreads₁, hfields⟩ := hmore rest q hrest hq
  obtain ⟨p₂, s, hp₂, hs, hreads₂⟩ :=
    reads_punctuation comma_mem hp₁ hreads₁
  obtain ⟨p₃, xs, hp₃, hreads₃, hv⟩ := h (byte ',' :: (more ++ rest)) p₂
    (follows_cons (.inl rfl) _) hp₂
  obtain ⟨p, k, c, hp, hk, hkey, hc, hreads⟩ :=
    reads_key key hp₃ (hreads₃.append hreads₂)
  refine ⟨p, _, ?_, hreads, .members hk hkey hc hv hs hfields⟩
  rw [List.append_assoc, List.append_assoc]
  exact hp

end written

/-! ## Every printed document -/

section documents

/-- A sequence that has a result has one for its first step. -/
theorem bind_eq_ok {α β : Type} {x : Except Failure α}
    {f : α → Except Failure β} {b : β} (h : (x >>= f) = .ok b) :
    ∃ a, x = .ok a ∧ f a = .ok b := by
  cases x with
  | ok a => exact ⟨a, rfl, h⟩
  | error e => cases h

theorem map_eq_ok {α β : Type} {x : Except Failure α} {f : α → β} {b : β}
    (h : x.map f = .ok b) : ∃ a, x = .ok a ∧ f a = b := by
  cases x with
  | ok a => exact ⟨a, rfl, Except.ok.inj h⟩
  | error e => cases h

mutual

/-- What `dump` prints derives what comes back.  The induction is on the
document. -/
theorem written_dump : ∀ {v w : BasicJson}, Everywhere SortedKeys v →
    reread v = .ok w → Written (dump v) (.value w)
  | .null, _, _, h => by
      rw [reread] at h
      cases h
      rw [dump]
      exact written_null
  | .boolean b, _, _, h => by
      rw [reread] at h
      cases h
      rw [dump]
      cases b with
      | true => exact written_true
      | false => exact written_false
  | .number_integer n, _, _, h => by
      rw [reread] at h
      rw [dump]
      exact written_number (integerText_literal n) h
  | .number_float (.finite negative q), _, _, h => by
      rw [reread] at h
      rw [dump]
      exact written_number (floatText_literal negative q) h
  | .number_float (.infinite _), _, _, h => by
      rw [reread] at h
      cases h
  | .number_float .nan, _, _, h => by
      rw [reread] at h
      cases h
  | .string s, _, _, h => by
      rw [reread] at h
      cases h
      rw [dump]
      exact written_string s
  | .array [], _, _, h => by
      rw [reread, rereadElements] at h
      cases h
      rw [dump]
      exact written_emptyBrackets bracket_mem.1 bracket_mem.2 .emptyArray
  | .array (elem :: elems), _, hc, h => by
      rw [reread] at h
      obtain ⟨vs, hvs, rfl⟩ := map_eq_ok h
      rw [Everywhere] at hc
      rw [dump]
      exact written_brackets bracket_mem.1 bracket_mem.2 (.inr (.inl rfl))
        (written_dumpElements hc.2 hvs) .array
  | .object [], _, _, h => by
      rw [reread, rereadFields] at h
      cases h
      rw [dump]
      exact written_emptyBrackets brace_mem.1 brace_mem.2 .emptyObject
  | .object ((key, value) :: fields), _, hc, h => by
      rw [reread] at h
      obtain ⟨vs, hvs, rfl⟩ := map_eq_ok h
      rw [Everywhere] at hc
      rw [dump]
      have hsorted : (vs.map Prod.fst).Pairwise (· < ·) := by
        rw [rereadFields_keys hvs]
        exact hc.1
      refine written_brackets brace_mem.1 brace_mem.2 (.inr (.inr rfl))
        (written_dumpFields hc.2 hvs) ?_
      intro x y xs hx hxs hy
      have := Derives.object hx hxs hy
      rwa [assign_nil_of_sorted hsorted] at this

theorem written_dumpElements : ∀ {elem : BasicJson} {elems vs : List BasicJson},
    EverywhereIn SortedKeys (elem :: elems) →
    rereadElements (elem :: elems) = .ok vs →
    Written (dump elem ++ dumpElements elems) (.elements vs)
  | elem, elems, _, hc, h => by
      rw [EverywhereIn] at hc
      rw [rereadElements] at h
      obtain ⟨v, hv, h⟩ := bind_eq_ok h
      obtain ⟨ws, hws, h⟩ := bind_eq_ok h
      cases h
      match elems, hc, hws with
      | [], hc, hws =>
          rw [rereadElements] at hws
          cases hws
          rw [dumpElements, List.append_nil]
          exact written_element (written_dump hc.1 hv)
      | next :: elems, hc, hws =>
          rw [dumpElements]
          exact written_elements (written_dump hc.1 hv)
            (written_dumpElements hc.2 hws)

theorem written_dumpFields : ∀ {key : Bytes} {value : BasicJson}
    {fields vs : List (Bytes × BasicJson)},
    EverywhereOf SortedKeys ((key, value) :: fields) →
    rereadFields ((key, value) :: fields) = .ok vs →
    Written (byte '"' :: (escape_string key ++ ascii "\":") ++ dump value ++
      dumpFields fields) (.members vs)
  | key, value, fields, _, hc, h => by
      rw [EverywhereOf] at hc
      rw [rereadFields] at h
      obtain ⟨v, hv, h⟩ := bind_eq_ok h
      obtain ⟨ws, hws, h⟩ := bind_eq_ok h
      cases h
      match fields, hc, hws with
      | [], hc, hws =>
          rw [rereadFields] at hws
          cases hws
          rw [dumpFields, List.append_nil]
          exact written_member key (written_dump hc.1 hv)
      | (next, value') :: fields, hc, hws =>
          rw [dumpFields, List.append_assoc]
          exact written_members key (written_dump hc.1 hv)
            (written_dumpFields hc.2 hws)

end

/-- The text of a document derives it, with its numbers read back. -/
theorem tokenizes_dump {v w : BasicJson} (hc : Canonical v)
    (h : reread v = .ok w) :
    ∃ xs, Tokenizes stringLexer (dump v) xs ∧ Derives xs (.value w) := by
  have hq : get_token stringLexer [] =
      .ok ⟨⟨.end_of_input, [0x00]⟩, []⟩ := rfl
  obtain ⟨p, xs, hp, hreads, hderives⟩ :=
    written_dump hc h [] _ (fun _ h => (nomatch h)) hq
  rw [List.append_nil] at hp
  exact ⟨xs, ⟨p, _, hp, hreads, rfl⟩, hderives⟩

/-- A document that has been printed is parsed again, with its numbers read
back. -/
theorem parseString_dump_of_reread {v w : BasicJson} (hc : Canonical v)
    (h : reread v = .ok w) : parseString (dump v) = .ok w :=
  parseString_of_derives (tokenizes_dump hc h)

/-- A document whose numbers are exact is parsed as it was. -/
theorem parseString_dump {v : BasicJson} (hc : Canonical v) (h : Exact v) :
    parseString (dump v) = .ok v :=
  parseString_of_derives (tokenizes_dump hc (reread_of_exact h))

theorem exactInteger_of_natAbs_le {n : ℤ} (h : n.natAbs ≤ 2 ^ 53) :
    ExactInteger n :=
  ⟨by omega, by omega, Double.representable_natCast h⟩

/-- A double that is a whole number comes back as an integer. -/
theorem parseString_dump_of_reread_whole :
    parseString (dump (.array [.number_float (.finite false 2),
      .number_integer (-7)])) =
        .ok (.array [.number_integer 2, .number_integer (-7)]) := by
  have htwo : reread (.number_float (.finite false 2)) =
      .ok (.number_integer 2) := by
    have hrep := Double.representable_natCast (n := 2) (by norm_num)
    have hprinted : printed 2 = ((2 : ℕ) : ℚ≥0) := if_pos rfl
    rw [reread, hprinted, Double.round_of_representable hrep]
    exact numberValue_natCast (n := 2) (by norm_num) (by norm_num)
  have hseven : reread (.number_integer (-7)) = .ok (.number_integer (-7)) :=
    (exactInteger_of_natAbs_le (by decide)).reread_eq
  refine parseString_dump_of_reread (by simp [Canonical, Everywhere,
    EverywhereIn, SortedKeys]) ?_
  simp only [reread, rereadElements] at htwo hseven ⊢
  rw [htwo, hseven]
  rfl

end documents

end Rc2Compute.Format
