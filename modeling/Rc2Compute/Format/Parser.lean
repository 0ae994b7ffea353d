import Rc2Compute.Format.Lexer
import Rc2Compute.Support.Fallible

/-!
# The parser of the json library

The recursive descent parser over the tokens of a lexer, without a callback,
as `operator>>` and `parse` make one.  Two lexers that give the same tokens
lead it to the same results.
-/

namespace Rc2Compute.Format

/-- The last token and where the lexer stands behind it. -/
structure Parser (σ : Type) where
  last_token : LexToken
  rest : σ

section errors

/-- A token in the text of an error. -/
def tokenText (token : LexToken) : Bytes :=
  if token.kind = .parse_error then
    byte '\'' :: (token.text ++ [byte '\''])
  else
    ascii (token_type_name token.kind)

def expect (t : token_type) (token : LexToken) : Except Failure Unit :=
  if t ≠ token.kind then
    .error (.invalid_argument (ascii "parse error - unexpected " ++
      tokenText token ++ ascii "; expected " ++ ascii (token_type_name t)))
  else .ok ()

/-- The error of a token that may not stand where it does. -/
def unexpected (token : LexToken) : Failure :=
  .invalid_argument (ascii "parse error - unexpected " ++ tokenText token)

def unexpect (t : token_type) (token : LexToken) : Except Failure Unit :=
  if t = token.kind then .error (unexpected token) else .ok ()

/-- A number token that could not be translated completely. -/
def notANumber (token : LexToken) : Failure :=
  .invalid_argument (ascii "parse error - " ++ token.text ++
    ascii " is not a number")

end errors

/-- Assigning to a key of a map: the value replaces the one there is, or a
field is added in its place by the order of the keys. -/
def setField (key : Bytes) (value : BasicJson) :
    List (Bytes × BasicJson) → List (Bytes × BasicJson)
  | [] => [(key, value)]
  | (k, v) :: fields =>
      if key < k then (key, value) :: (k, v) :: fields
      else if key = k then (key, value) :: fields
      else (k, v) :: setField key value fields

section parser

variable {σ : Type} (lexer : Lexer σ)

def get_token (s : σ) : Except Failure (Parser σ) :=
  match lexer.scan s with
  | some (token, rest) => .ok ⟨token, rest⟩
  | none => .error .stuck

/-- At the head of a loop: a comma is passed over. -/
def skipSeparator (p : Parser σ) : Except Failure (Parser σ) :=
  if p.last_token.kind = .value_separator then get_token lexer p.rest
  else .ok p

mutual

/-- `parse_internal`.  At the end it calls `unexpect` with the kind the token
has. -/
def parse_internal : ℕ → Parser σ → Except Failure (BasicJson × Parser σ)
  | 0, _ => .error .outOfFuel
  | fuel + 1, p =>
      match p.last_token.kind with
      | .begin_object => do
          let p ← get_token lexer p.rest
          if p.last_token.kind = .end_object then
            let q ← get_token lexer p.rest
            return (.object [], q)
          unexpect .value_separator p.last_token
          parseMembers fuel [] p
      | .begin_array => do
          let p ← get_token lexer p.rest
          if p.last_token.kind = .end_array then
            let q ← get_token lexer p.rest
            return (.array [], q)
          unexpect .value_separator p.last_token
          parseElements fuel [] p
      | .literal_null => do
          let q ← get_token lexer p.rest
          return (.null, q)
      | .value_string => do
          let s ← get_string p.last_token
          let q ← get_token lexer p.rest
          return (.string s, q)
      | .literal_true => do
          let q ← get_token lexer p.rest
          return (.boolean true, q)
      | .literal_false => do
          let q ← get_token lexer p.rest
          return (.boolean false, q)
      | .value_number => do
          let x := get_number p.last_token (lexer.following p.rest)
          if x = .nan then
            throw (notANumber p.last_token)
          let q ← get_token lexer p.rest
          let v ← numberValue x
          return (v, q)
      | _ => .error (unexpected p.last_token)

/-- The loop over the fields of an object. -/
def parseMembers : ℕ → List (Bytes × BasicJson) → Parser σ →
    Except Failure (BasicJson × Parser σ)
  | 0, _, _ => .error .outOfFuel
  | fuel + 1, fields, p => do
      let p ← skipSeparator lexer p
      expect .value_string p.last_token
      let key ← get_string p.last_token
      let p ← get_token lexer p.rest
      expect .name_separator p.last_token
      let p ← get_token lexer p.rest
      let (value, p) ← parse_internal fuel p
      if p.last_token.kind = .value_separator then
        parseMembers fuel (setField key value fields) p
      else
        expect .end_object p.last_token
        let q ← get_token lexer p.rest
        return (.object (setField key value fields), q)

/-- The loop over the elements of an array. -/
def parseElements : ℕ → List BasicJson → Parser σ →
    Except Failure (BasicJson × Parser σ)
  | 0, _, _ => .error .outOfFuel
  | fuel + 1, elems, p => do
      let p ← skipSeparator lexer p
      let (value, p) ← parse_internal fuel p
      if p.last_token.kind = .value_separator then
        parseElements fuel (elems ++ [value]) p
      else
        expect .end_array p.last_token
        let q ← get_token lexer p.rest
        return (.array (elems ++ [value]), q)

end

/-- The constructor reads the first token, and `parse` a value and the end of
the text. -/
def parse (fuel : ℕ) (s : σ) : Except Failure BasicJson := do
  let p ← get_token lexer s
  let (result, q) ← parse_internal lexer fuel p
  expect .end_of_input q.last_token
  return result

end parser

/-- Enough fuel for a text. -/
def fuelFor (text : Bytes) : ℕ := 2 * text.length + 1

/-- `basic_json::parse` of a string. -/
def parseString (text : Bytes) : Except Failure BasicJson :=
  parse stringLexer (fuelFor text) text

/-- `operator>>` from a stream. -/
def parseStream (text : Bytes) : Except Failure BasicJson :=
  parse streamLexer (fuelFor text) (.ofText 0x0a text)

/-! ## Lexers that agree -/

section simulation

variable {σ τ : Type} {lexer₁ : Lexer σ} {lexer₂ : Lexer τ}
  {R : σ → τ → Prop}

/-- In related states the lexers give the same token, and numbers the same
value. -/
structure Simulates (lexer₁ : Lexer σ) (lexer₂ : Lexer τ)
    (R : σ → τ → Prop) : Prop where
  scan : ∀ {s t}, R s t →
    (lexer₁.scan s = none ∧ lexer₂.scan t = none) ∨
      ∃ token s' t', lexer₁.scan s = some (token, s') ∧
        lexer₂.scan t = some (token, t') ∧ R s' t'
  number : ∀ {s t} (token : LexToken), R s t →
    get_number token (lexer₁.following s) =
      get_number token (lexer₂.following t)

def Parser.Agree (R : σ → τ → Prop) (p : Parser σ) (q : Parser τ) : Prop :=
  p.last_token = q.last_token ∧ R p.rest q.rest

/-- The same value, and parsers that agree. -/
def SameValue {α : Type} (R : σ → τ → Prop) (x : α × Parser σ)
    (y : α × Parser τ) : Prop :=
  x.1 = y.1 ∧ x.2.Agree R y.2

theorem Simulates.get_token (h : Simulates lexer₁ lexer₂ R) {s : σ} {t : τ}
    (hst : R s t) :
    Lifts (Parser.Agree R) (get_token lexer₁ s) (get_token lexer₂ t) := by
  rcases h.scan hst with ⟨hs, ht⟩ | ⟨token, s', t', hs, ht, hst'⟩
  · rw [Format.get_token, Format.get_token, hs, ht]
    exact .error _
  · rw [Format.get_token, Format.get_token, hs, ht]
    exact .ok ⟨rfl, hst'⟩

/-- The last token of a value has been read. -/
theorem Simulates.get_token_value (h : Simulates lexer₁ lexer₂ R) {s : σ}
    {t : τ} (hst : R s t) {α : Type} (v : α) :
    Lifts (SameValue R) (Format.get_token lexer₁ s >>= fun q => .ok (v, q))
      (Format.get_token lexer₂ t >>= fun q => .ok (v, q)) :=
  (h.get_token hst).bind fun _ _ hpq => .ok ⟨rfl, hpq⟩

theorem Simulates.skipSeparator (h : Simulates lexer₁ lexer₂ R)
    {p : Parser σ} {q : Parser τ} (hpq : p.Agree R q) :
    Lifts (Parser.Agree R) (skipSeparator lexer₁ p)
      (skipSeparator lexer₂ q) := by
  rw [Format.skipSeparator, Format.skipSeparator, hpq.1]
  split
  · exact h.get_token hpq.2
  · exact .ok hpq

/-- What the three functions of the parser do at one amount of fuel. -/
structure ParserAgrees (lexer₁ : Lexer σ) (lexer₂ : Lexer τ)
    (R : σ → τ → Prop) (fuel : ℕ) : Prop where
  internal : ∀ {p q}, Parser.Agree R p q →
    Lifts (SameValue R) (parse_internal lexer₁ fuel p)
      (parse_internal lexer₂ fuel q)
  members : ∀ {p q} fields, Parser.Agree R p q →
    Lifts (SameValue R) (parseMembers lexer₁ fuel fields p)
      (parseMembers lexer₂ fuel fields q)
  elements : ∀ {p q} elems, Parser.Agree R p q →
    Lifts (SameValue R) (parseElements lexer₁ fuel elems p)
      (parseElements lexer₂ fuel elems q)

theorem Simulates.internal_step (h : Simulates lexer₁ lexer₂ R) {fuel : ℕ}
    (ih : ParserAgrees lexer₁ lexer₂ R fuel) {p : Parser σ} {q : Parser τ}
    (hpq : p.Agree R q) :
    Lifts (SameValue R) (parse_internal lexer₁ (fuel + 1) p)
      (parse_internal lexer₂ (fuel + 1) q) := by
  obtain ⟨token, s⟩ := p
  obtain ⟨token', t⟩ := q
  obtain ⟨rfl, hst⟩ : token = token' ∧ R s t := hpq
  rw [parse_internal, parse_internal]
  dsimp only
  cases hkind : token.kind with
  | begin_object =>
      refine (h.get_token hst).bind fun p q hpq => ?_
      rw [hpq.1]
      split
      · exact h.get_token_value hpq.2 _
      · exact Lifts.seq _ fun _ => ih.members [] hpq
  | begin_array =>
      refine (h.get_token hst).bind fun p q hpq => ?_
      rw [hpq.1]
      split
      · exact h.get_token_value hpq.2 _
      · exact Lifts.seq _ fun _ => ih.elements [] hpq
  | literal_null | literal_true | literal_false =>
      exact h.get_token_value hst _
  | value_string =>
      exact Lifts.seq _ fun _ => h.get_token_value hst _
  | value_number =>
      rw [h.number token hst]
      dsimp only
      split
      · exact .error _
      · exact (h.get_token hst).bind fun p q hpq =>
          Lifts.seq _ fun v => .ok ⟨rfl, hpq⟩
  | _ => exact .error _

theorem Simulates.members_step (h : Simulates lexer₁ lexer₂ R) {fuel : ℕ}
    (ih : ParserAgrees lexer₁ lexer₂ R fuel)
    (fields : List (Bytes × BasicJson)) {p : Parser σ} {q : Parser τ}
    (hpq : p.Agree R q) :
    Lifts (SameValue R) (parseMembers lexer₁ (fuel + 1) fields p)
      (parseMembers lexer₂ (fuel + 1) fields q) := by
  rw [parseMembers, parseMembers]
  refine (h.skipSeparator hpq).bind fun p q hpq => ?_
  rw [hpq.1]
  refine Lifts.seq _ fun _ => Lifts.seq _ fun key => ?_
  refine (h.get_token hpq.2).bind fun p q hpq => ?_
  rw [hpq.1]
  refine Lifts.seq _ fun _ => ?_
  refine (h.get_token hpq.2).bind fun p q hpq => ?_
  refine (ih.internal hpq).bind ?_
  rintro ⟨value, p⟩ ⟨value', q⟩ ⟨rfl, hpq⟩
  dsimp only at hpq ⊢
  rw [hpq.1]
  split
  · exact ih.members _ hpq
  · exact Lifts.seq _ fun _ => h.get_token_value hpq.2 _

theorem Simulates.elements_step (h : Simulates lexer₁ lexer₂ R) {fuel : ℕ}
    (ih : ParserAgrees lexer₁ lexer₂ R fuel) (elems : List BasicJson)
    {p : Parser σ} {q : Parser τ} (hpq : p.Agree R q) :
    Lifts (SameValue R) (parseElements lexer₁ (fuel + 1) elems p)
      (parseElements lexer₂ (fuel + 1) elems q) := by
  rw [parseElements, parseElements]
  refine (h.skipSeparator hpq).bind fun p q hpq => ?_
  refine (ih.internal hpq).bind ?_
  rintro ⟨value, p⟩ ⟨value', q⟩ ⟨rfl, hpq⟩
  dsimp only at hpq ⊢
  rw [hpq.1]
  split
  · exact ih.elements _ hpq
  · exact Lifts.seq _ fun _ => h.get_token_value hpq.2 _

theorem Simulates.parser (h : Simulates lexer₁ lexer₂ R) (fuel : ℕ) :
    ParserAgrees lexer₁ lexer₂ R fuel := by
  induction fuel with
  | zero =>
      constructor
      · intros
        exact .error _
      · intros
        exact .error _
      · intros
        exact .error _
  | succ fuel ih =>
      exact ⟨h.internal_step ih, fun fields => h.members_step ih fields,
        fun elems => h.elements_step ih elems⟩

/-- Lexers that agree lead the parser to the same result, or to the same
error. -/
theorem Simulates.parse (h : Simulates lexer₁ lexer₂ R) (fuel : ℕ) {s : σ}
    {t : τ} (hst : R s t) :
    Format.parse lexer₁ fuel s = Format.parse lexer₂ fuel t := by
  refine Lifts.eq ?_
  refine (h.get_token hst).bind fun p q hpq => ?_
  refine ((h.parser fuel).internal hpq).bind ?_
  rintro ⟨value, p⟩ ⟨value', q⟩ ⟨rfl, hpq⟩
  dsimp only at hpq ⊢
  rw [hpq.1]
  exact Lifts.seq _ fun _ => .ok rfl

end simulation

end Rc2Compute.Format
