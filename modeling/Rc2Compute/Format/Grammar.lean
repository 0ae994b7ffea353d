import Rc2Compute.Format.Parser

/-!
# The grammar of documents

How a document is written with lexemes, as a grammar, and the sequence of
lexemes a lexer gives.  The parser accepts exactly the sequences the grammar
derives, with their values, and it fails in no other way than by an exception
or by a number beyond the range of integers.
-/

namespace Rc2Compute.Format

/-- A token with the text behind it. -/
structure Lexeme where
  token : LexToken
  following : Bytes

namespace Lexeme

def kind (x : Lexeme) : token_type := x.token.kind

def number (x : Lexeme) : Double := get_number x.token x.following

end Lexeme

/-- Assigning fields one after the other. -/
def assign (fields more : List (Bytes × BasicJson)) :
    List (Bytes × BasicJson) :=
  more.foldl (fun fields field => setField field.1 field.2 fields) fields

inductive Phrase where
  | value (v : BasicJson)
  | elements (vs : List BasicJson)
  | members (fields : List (Bytes × BasicJson))

/-- The rules of the format. -/
inductive Derives : List Lexeme → Phrase → Prop where
  | null {x : Lexeme} (h : x.kind = .literal_null) :
      Derives [x] (.value .null)
  | yes {x : Lexeme} (h : x.kind = .literal_true) :
      Derives [x] (.value (.boolean true))
  | no {x : Lexeme} (h : x.kind = .literal_false) :
      Derives [x] (.value (.boolean false))
  | string {x : Lexeme} {s : Bytes} (h : x.kind = .value_string)
      (hs : get_string x.token = .ok s) : Derives [x] (.value (.string s))
  | number {x : Lexeme} {v : BasicJson} (h : x.kind = .value_number)
      (hx : x.number ≠ .nan) (hv : numberValue x.number = .ok v) :
      Derives [x] (.value v)
  | emptyArray {o c : Lexeme} (ho : o.kind = .begin_array)
      (hc : c.kind = .end_array) : Derives [o, c] (.value (.array []))
  | array {o c : Lexeme} {xs : List Lexeme} {vs : List BasicJson}
      (ho : o.kind = .begin_array) (h : Derives xs (.elements vs))
      (hc : c.kind = .end_array) :
      Derives (o :: (xs ++ [c])) (.value (.array vs))
  | emptyObject {o c : Lexeme} (ho : o.kind = .begin_object)
      (hc : c.kind = .end_object) : Derives [o, c] (.value (.object []))
  | object {o c : Lexeme} {xs : List Lexeme}
      {fields : List (Bytes × BasicJson)} (ho : o.kind = .begin_object)
      (h : Derives xs (.members fields)) (hc : c.kind = .end_object) :
      Derives (o :: (xs ++ [c])) (.value (.object (assign [] fields)))
  | element {xs : List Lexeme} {v : BasicJson} (h : Derives xs (.value v)) :
      Derives xs (.elements [v])
  | elements {xs ys : List Lexeme} {s : Lexeme} {v : BasicJson}
      {vs : List BasicJson} (h : Derives xs (.value v))
      (hs : s.kind = .value_separator) (hrest : Derives ys (.elements vs)) :
      Derives (xs ++ s :: ys) (.elements (v :: vs))
  | member {k c : Lexeme} {xs : List Lexeme} {key : Bytes} {v : BasicJson}
      (hk : k.kind = .value_string) (hkey : get_string k.token = .ok key)
      (hc : c.kind = .name_separator) (h : Derives xs (.value v)) :
      Derives (k :: c :: xs) (.members [(key, v)])
  | members {k c s : Lexeme} {xs ys : List Lexeme} {key : Bytes}
      {v : BasicJson} {fields : List (Bytes × BasicJson)}
      (hk : k.kind = .value_string) (hkey : get_string k.token = .ok key)
      (hc : c.kind = .name_separator) (h : Derives xs (.value v))
      (hs : s.kind = .value_separator)
      (hrest : Derives ys (.members fields)) :
      Derives (k :: c :: (xs ++ s :: ys)) (.members ((key, v) :: fields))

/-- A value does not begin with a closing bracket, a comma or the end. -/
def StartsValue (kind : token_type) : Prop :=
  kind ≠ .end_array ∧ kind ≠ .end_object ∧ kind ≠ .value_separator ∧
    kind ≠ .end_of_input

/-- What a derivation begins with. -/
theorem Derives.head {xs : List Lexeme} {phrase : Phrase}
    (h : Derives xs phrase) : ∃ x ys, xs = x :: ys ∧ StartsValue x.kind := by
  induction h with
  | null h | yes h | no h | string h _ | number h _ _ =>
      exact ⟨_, _, rfl, by rw [h]; simp [StartsValue]⟩
  | emptyArray ho _ | array ho _ _ _ | emptyObject ho _ | object ho _ _ _ =>
      exact ⟨_, _, rfl, by rw [ho]; simp [StartsValue]⟩
  | member hk _ _ _ _ | members hk _ _ _ _ _ _ _ =>
      exact ⟨_, _, rfl, by rw [hk]; simp [StartsValue]⟩
  | element _ ih => exact ih
  | elements _ _ _ ih _ =>
      obtain ⟨x, ys, rfl, hx⟩ := ih
      exact ⟨x, _, List.cons_append, hx⟩

theorem Derives.ne_nil {xs : List Lexeme} {phrase : Phrase}
    (h : Derives xs phrase) : xs ≠ [] := by
  obtain ⟨x, ys, rfl, -⟩ := h.head
  exact List.cons_ne_nil _ _

/-! ## The lexemes a lexer gives -/

section reads

variable {σ : Type} (lexer : Lexer σ)

def Parser.lexeme (p : Parser σ) : Lexeme where
  token := p.last_token
  following := lexer.following p.rest

/-- Reading lexemes leads from one state of the parser to another. -/
inductive Reads : Parser σ → List Lexeme → Parser σ → Prop where
  | nil (p : Parser σ) : Reads p [] p
  | cons {p q r : Parser σ} {xs : List Lexeme}
      (hkind : p.last_token.kind ≠ .end_of_input)
      (hp : get_token lexer p.rest = .ok q) (h : Reads q xs r) :
      Reads p (p.lexeme lexer :: xs) r

/-- The lexemes of a whole text. -/
def Tokenizes (s : σ) (xs : List Lexeme) : Prop :=
  ∃ p q, get_token lexer s = .ok p ∧ Reads lexer p xs q ∧
    q.last_token.kind = .end_of_input

/-- The last token has come from the lexer. -/
def Scanned (p : Parser σ) : Prop :=
  ∃ s, get_token lexer s = .ok p

/-- A number that does not fit an integer. -/
def Lexeme.Overflows (x : Lexeme) : Prop :=
  x.kind = .value_number ∧ x.number ≠ .nan ∧
    numberValue x.number = .error .undefined

/-- The library throws an exception of its own. -/
def Failure.Reported : Failure → Prop
  | .invalid_argument _ => True
  | _ => False

/-- How the parser may fail from a state on. -/
def Fails (p : Parser σ) (e : Failure) : Prop :=
  e.Reported ∨ e = .undefined ∧
    ∃ xs q, Reads lexer p xs q ∧ (q.lexeme lexer).Overflows

/-- The lexer always gives a token and gets on with the text, and the string
tokens it gives are well formed. -/
structure Advances (size : σ → ℕ) : Prop where
  total : ∀ s, ∃ token s', lexer.scan s = some (token, s')
  smaller : ∀ {s token s'}, lexer.scan s = some (token, s') →
    token.kind ≠ .end_of_input → size s' < size s
  string : ∀ {s token s'}, lexer.scan s = some (token, s') →
    token.kind = .value_string →
    Yields (fun _ => True) Failure.Reported (get_string token)

variable {lexer}

theorem Reads.append {p q r : Parser σ} {xs ys : List Lexeme}
    (h : Reads lexer p xs q) (h' : Reads lexer q ys r) :
    Reads lexer p (xs ++ ys) r := by
  induction h with
  | nil => exact h'
  | cons hkind hp _ ih => exact .cons hkind hp (ih h')

theorem Reads.single {p q : Parser σ}
    (hkind : p.last_token.kind ≠ .end_of_input)
    (h : get_token lexer p.rest = .ok q) :
    Reads lexer p [p.lexeme lexer] q :=
  .cons hkind h (.nil q)

theorem reads_cons {p r : Parser σ} {x : Lexeme} {xs : List Lexeme} :
    Reads lexer p (x :: xs) r ↔
      x = p.lexeme lexer ∧ p.last_token.kind ≠ .end_of_input ∧
        ∃ q, get_token lexer p.rest = .ok q ∧ Reads lexer q xs r := by
  constructor
  · intro h
    cases h with
    | cons hkind hp h => exact ⟨rfl, hkind, _, hp, h⟩
  · rintro ⟨rfl, hkind, q, hp, h⟩
    exact .cons hkind hp h

theorem reads_append {p r : Parser σ} {xs ys : List Lexeme} :
    Reads lexer p (xs ++ ys) r ↔
      ∃ q, Reads lexer p xs q ∧ Reads lexer q ys r := by
  constructor
  · intro h
    induction xs generalizing p with
    | nil => exact ⟨p, .nil p, h⟩
    | cons x xs ih =>
        rw [List.cons_append, reads_cons] at h
        obtain ⟨rfl, hkind, p', hp, h⟩ := h
        obtain ⟨q, hq, hr⟩ := ih h
        exact ⟨q, .cons hkind hp hq, hr⟩
  · rintro ⟨q, hq, hr⟩
    exact hq.append hr

theorem reads_single {p q : Parser σ} {x : Lexeme} :
    Reads lexer p [x] q ↔
      x = p.lexeme lexer ∧ p.last_token.kind ≠ .end_of_input ∧
        get_token lexer p.rest = .ok q := by
  rw [reads_cons]
  constructor
  · rintro ⟨hx, hkind, q', hq, h⟩
    cases h
    exact ⟨hx, hkind, hq⟩
  · rintro ⟨hx, hkind, hq⟩
    exact ⟨hx, hkind, q, hq, .nil q⟩

theorem Fails.before {p q : Parser σ} {xs : List Lexeme} {e : Failure}
    (h : Reads lexer p xs q) (he : Fails lexer q e) : Fails lexer p e := by
  rcases he with he | ⟨rfl, ys, r, hr, hover⟩
  · exact .inl he
  · exact .inr ⟨rfl, _, r, h.append hr, hover⟩

end reads

/-! ## What the grammar derives is parsed -/

section completeness

variable {σ : Type} (lexer : Lexer σ)

theorem bind_ok {α β : Type} (a : α) (f : α → Except Failure β) :
    (Except.ok a >>= f) = f a := rfl

theorem expect_ok {t : token_type} {token : LexToken} (h : token.kind = t) :
    expect t token = .ok () := by
  rw [expect, if_neg (fun hne => hne h.symm)]

theorem unexpect_ok {t : token_type} {token : LexToken} (h : token.kind ≠ t) :
    unexpect t token = .ok () := by
  rw [unexpect, if_neg (fun heq => h heq.symm)]

theorem skipSeparator_ok {p : Parser σ}
    (h : p.last_token.kind ≠ .value_separator) :
    skipSeparator lexer p = .ok p := by
  rw [skipSeparator, if_neg h]

/-- The parser reads the lexemes of a phrase and gives what they stand for. -/
def Phrase.Parsed (xs : List Lexeme) : Phrase → Prop
  | .value v => ∀ {p q : Parser σ} {fuel : ℕ}, 2 * xs.length ≤ fuel →
      Reads lexer p xs q → parse_internal lexer fuel p = .ok (v, q)
  | .elements vs => ∀ {p p' q r : Parser σ} {c : Lexeme} {fuel : ℕ}
      (elems : List BasicJson), 2 * xs.length + 1 ≤ fuel →
      skipSeparator lexer p = .ok p' → Reads lexer p' xs q →
      Reads lexer q [c] r → c.kind = .end_array →
      parseElements lexer fuel elems p = .ok (.array (elems ++ vs), r)
  | .members more => ∀ {p p' q r : Parser σ} {c : Lexeme} {fuel : ℕ}
      (fields : List (Bytes × BasicJson)), 2 * xs.length + 1 ≤ fuel →
      skipSeparator lexer p = .ok p' → Reads lexer p' xs q →
      Reads lexer q [c] r → c.kind = .end_object →
      parseMembers lexer fuel fields p =
        .ok (.object (assign fields more), r)

variable {lexer}

/-- A value of one token. -/
theorem parsed_single {x : Lexeme} {v : BasicJson}
    (h : ∀ {p q : Parser σ} {fuel : ℕ}, x = p.lexeme lexer →
      get_token lexer p.rest = .ok q →
      parse_internal lexer (fuel + 1) p = .ok (v, q)) :
    (Phrase.value v).Parsed lexer [x] := by
  intro p q fuel hfuel hreads
  obtain ⟨hx, -, hq⟩ := reads_single.mp hreads
  obtain ⟨fuel, rfl⟩ : ∃ n, fuel = n + 1 :=
    ⟨fuel - 1, by simp only [List.length_singleton] at hfuel; omega⟩
  exact h hx hq

theorem parsed_element {xs : List Lexeme} {v : BasicJson}
    (h : (Phrase.value v).Parsed lexer xs) :
    (Phrase.elements [v]).Parsed lexer xs := by
  intro p p' q r c fuel elems hfuel hskip hreads hclose hc
  obtain ⟨fuel, rfl⟩ : ∃ n, fuel = n + 1 := ⟨fuel - 1, by omega⟩
  obtain ⟨rfl, -, hr⟩ := reads_single.mp hclose
  have hc' : q.last_token.kind = .end_array := hc
  rw [parseElements, hskip, bind_ok, h (by omega) hreads, bind_ok]
  dsimp only
  rw [if_neg (by rw [hc']; decide), expect_ok hc', bind_ok, hr]
  rfl

theorem parsed_elements {xs ys : List Lexeme} {s : Lexeme} {v : BasicJson}
    {vs : List BasicJson} (h : (Phrase.value v).Parsed lexer xs)
    (hs : s.kind = .value_separator)
    (hrest : (Phrase.elements vs).Parsed lexer ys) :
    (Phrase.elements (v :: vs)).Parsed lexer (xs ++ s :: ys) := by
  intro p p' q r c fuel elems hfuel hskip hreads hclose hc
  obtain ⟨fuel, rfl⟩ : ∃ n, fuel = n + 1 := ⟨fuel - 1, by omega⟩
  obtain ⟨q₁, hq₁, hreads⟩ := reads_append.mp hreads
  obtain ⟨rfl, -, q₂, hq₂, hreads⟩ := reads_cons.mp hreads
  have hs' : q₁.last_token.kind = .value_separator := hs
  rw [List.length_append, List.length_cons] at hfuel
  have hskip₁ : skipSeparator lexer q₁ = .ok q₂ := by
    rw [skipSeparator, if_pos hs', hq₂]
  rw [parseElements, hskip, bind_ok, h (by omega) hq₁, bind_ok]
  dsimp only
  rw [if_pos hs',
    hrest (elems ++ [v]) (by omega) hskip₁ hreads hclose hc,
    List.append_assoc]
  rfl

/-- The key, the colon and the value of a field. -/
theorem parseMembers_field {k c : Lexeme} {xs : List Lexeme} {key : Bytes}
    {v : BasicJson} (hk : k.kind = .value_string)
    (hkey : get_string k.token = .ok key) (hc : c.kind = .name_separator)
    (h : (Phrase.value v).Parsed lexer xs) {p p' q : Parser σ} {fuel : ℕ}
    (fields : List (Bytes × BasicJson)) (hfuel : 2 * xs.length ≤ fuel)
    (hskip : skipSeparator lexer p = .ok p')
    (hreads : Reads lexer p' (k :: c :: xs) q) :
    parseMembers lexer (fuel + 1) fields p =
      if q.last_token.kind = .value_separator then
        parseMembers lexer fuel (setField key v fields) q
      else do
        expect .end_object q.last_token
        let r ← get_token lexer q.rest
        return (.object (setField key v fields), r) := by
  obtain ⟨rfl, -, q₁, hq₁, hreads⟩ := reads_cons.mp hreads
  obtain ⟨rfl, -, q₂, hq₂, hreads⟩ := reads_cons.mp hreads
  have hk' : p'.last_token.kind = .value_string := hk
  have hkey' : get_string p'.last_token = .ok key := hkey
  have hc' : q₁.last_token.kind = .name_separator := hc
  rw [parseMembers, hskip, bind_ok, expect_ok hk', bind_ok, hkey', bind_ok,
    hq₁, bind_ok, expect_ok hc', bind_ok, hq₂, bind_ok, h hfuel hreads,
    bind_ok]

theorem parsed_member {k c : Lexeme} {xs : List Lexeme} {key : Bytes}
    {v : BasicJson} (hk : k.kind = .value_string)
    (hkey : get_string k.token = .ok key) (hc : c.kind = .name_separator)
    (h : (Phrase.value v).Parsed lexer xs) :
    (Phrase.members [(key, v)]).Parsed lexer (k :: c :: xs) := by
  intro p p' q r c' fuel fields hfuel hskip hreads hclose hc'
  obtain ⟨fuel, rfl⟩ : ∃ n, fuel = n + 1 := ⟨fuel - 1, by omega⟩
  rw [List.length_cons, List.length_cons] at hfuel
  obtain ⟨rfl, -, hr⟩ := reads_single.mp hclose
  have hkind : q.last_token.kind = .end_object := hc'
  rw [parseMembers_field hk hkey hc h fields (by omega) hskip hreads,
    if_neg (by rw [hkind]; decide), expect_ok hkind, bind_ok, hr]
  rfl

theorem parsed_members {k c s : Lexeme} {xs ys : List Lexeme} {key : Bytes}
    {v : BasicJson} {more : List (Bytes × BasicJson)}
    (hk : k.kind = .value_string) (hkey : get_string k.token = .ok key)
    (hc : c.kind = .name_separator) (h : (Phrase.value v).Parsed lexer xs)
    (hs : s.kind = .value_separator)
    (hrest : (Phrase.members more).Parsed lexer ys) :
    (Phrase.members ((key, v) :: more)).Parsed lexer
      (k :: c :: (xs ++ s :: ys)) := by
  intro p p' q r c' fuel fields hfuel hskip hreads hclose hc'
  obtain ⟨fuel, rfl⟩ : ∃ n, fuel = n + 1 := ⟨fuel - 1, by omega⟩
  rw [List.length_cons, List.length_cons, List.length_append,
    List.length_cons] at hfuel
  rw [← List.cons_append, ← List.cons_append] at hreads
  obtain ⟨q₁, hq₁, hreads⟩ := reads_append.mp hreads
  obtain ⟨rfl, -, q₂, hq₂, hreads⟩ := reads_cons.mp hreads
  have hs' : q₁.last_token.kind = .value_separator := hs
  have hskip₁ : skipSeparator lexer q₁ = .ok q₂ := by
    rw [skipSeparator, if_pos hs', hq₂]
  rw [parseMembers_field hk hkey hc h fields (by omega) hskip hq₁,
    if_pos hs', hrest _ (by omega) hskip₁ hreads hclose hc']
  rfl

/-- Behind an opening bracket the loop is entered without a comma. -/
theorem Reads.open {o : Lexeme} {xs ys : List Lexeme} {phrase : Phrase}
    {p r : Parser σ} (h : Derives xs phrase)
    (hreads : Reads lexer p (o :: (xs ++ ys)) r) :
    o = p.lexeme lexer ∧ ∃ q₁ q₂, get_token lexer p.rest = .ok q₁ ∧
      StartsValue q₁.last_token.kind ∧ skipSeparator lexer q₁ = .ok q₁ ∧
      Reads lexer q₁ xs q₂ ∧ Reads lexer q₂ ys r := by
  obtain ⟨ho, -, q₁, hq₁, hreads⟩ := reads_cons.mp hreads
  obtain ⟨q₂, hxs, hys⟩ := reads_append.mp hreads
  obtain ⟨x, xs, rfl, hx⟩ := h.head
  obtain ⟨rfl, -⟩ := reads_cons.mp hxs
  exact ⟨ho, q₁, q₂, hq₁, hx, skipSeparator_ok lexer hx.2.2.1, hxs, hys⟩

/-- Whatever the grammar derives, the parser reads. -/
theorem Derives.parsed {xs : List Lexeme} {phrase : Phrase}
    (h : Derives xs phrase) : phrase.Parsed lexer xs := by
  induction h with
  | null h | yes h | no h =>
      refine parsed_single fun hx hq => ?_
      subst hx
      rw [parse_internal]
      simp only [show (_ : Parser σ).last_token.kind = _ from h, hq]
      rfl
  | string h hs =>
      refine parsed_single fun hx hq => ?_
      subst hx
      rw [parse_internal]
      simp only [show (_ : Parser σ).last_token.kind = _ from h,
        show get_string (_ : Parser σ).last_token = _ from hs, hq]
      rfl
  | number h hnan hv =>
      refine parsed_single fun {p q fuel} hx hq => ?_
      subst hx
      have hnan' : get_number p.last_token (lexer.following p.rest) ≠ .nan :=
        hnan
      have hv' : numberValue (get_number p.last_token
          (lexer.following p.rest)) = _ := hv
      rw [parse_internal]
      simp only [show p.last_token.kind = _ from h]
      rw [if_neg hnan', hq, bind_ok, hv']
      rfl
  | emptyArray ho hc =>
      intro p q fuel hfuel hreads
      obtain ⟨fuel, rfl⟩ : ∃ n, fuel = n + 1 :=
        ⟨fuel - 1, by simp only [List.length_cons] at hfuel; omega⟩
      obtain ⟨rfl, -, q₁, hq₁, hreads⟩ := reads_cons.mp hreads
      obtain ⟨rfl, -, hq⟩ := reads_single.mp hreads
      rw [parse_internal]
      simp only [show p.last_token.kind = _ from ho, hq₁, bind_ok]
      rw [if_pos (show q₁.last_token.kind = _ from hc), hq]
      rfl
  | emptyObject ho hc =>
      intro p q fuel hfuel hreads
      obtain ⟨fuel, rfl⟩ : ∃ n, fuel = n + 1 :=
        ⟨fuel - 1, by simp only [List.length_cons] at hfuel; omega⟩
      obtain ⟨rfl, -, q₁, hq₁, hreads⟩ := reads_cons.mp hreads
      obtain ⟨rfl, -, hq⟩ := reads_single.mp hreads
      rw [parse_internal]
      simp only [show p.last_token.kind = _ from ho, hq₁, bind_ok]
      rw [if_pos (show q₁.last_token.kind = _ from hc), hq]
      rfl
  | array ho h hc ih =>
      intro p q fuel hfuel hreads
      rw [List.length_cons, List.length_append] at hfuel
      obtain ⟨fuel, rfl⟩ : ∃ n, fuel = n + 1 := ⟨fuel - 1, by omega⟩
      obtain ⟨rfl, q₁, q₂, hq₁, hstart, hskip, hxs, hclose⟩ :=
        Reads.open h hreads
      rw [parse_internal]
      simp only [show p.last_token.kind = _ from ho, hq₁, bind_ok]
      rw [if_neg hstart.1, unexpect_ok hstart.2.2.1, bind_ok,
        ih [] (by omega) hskip hxs hclose hc]
      rfl
  | object ho h hc ih =>
      intro p q fuel hfuel hreads
      rw [List.length_cons, List.length_append] at hfuel
      obtain ⟨fuel, rfl⟩ : ∃ n, fuel = n + 1 := ⟨fuel - 1, by omega⟩
      obtain ⟨rfl, q₁, q₂, hq₁, hstart, hskip, hxs, hclose⟩ :=
        Reads.open h hreads
      rw [parse_internal]
      simp only [show p.last_token.kind = _ from ho, hq₁, bind_ok]
      rw [if_neg hstart.2.1, unexpect_ok hstart.2.2.1, bind_ok,
        ih [] (by omega) hskip hxs hclose hc]
  | element _ ih => exact parsed_element ih
  | elements _ hs _ ih ihrest => exact parsed_elements ih hs ihrest
  | member hk hkey hc _ ih => exact parsed_member hk hkey hc ih
  | members hk hkey hc _ hs _ ih ihrest =>
      exact parsed_members hk hkey hc ih hs ihrest

end completeness

/-! ## What is parsed is derived -/

section soundness

variable {σ : Type} {lexer : Lexer σ} {size : σ → ℕ}

/-- The parser has read a phrase that the grammar derives. -/
def Read (lexer : Lexer σ) (p : Parser σ) (phrase : Phrase) (q : Parser σ) :
    Prop :=
  ∃ xs, Derives xs phrase ∧ Reads lexer p xs q

/-- How much fuel a value needs from a state of the parser on. -/
def cost (size : σ → ℕ) (p : Parser σ) : ℕ :=
  if p.last_token.kind = .end_of_input then 1 else 2 * size p.rest + 3

theorem cost_pos (p : Parser σ) : 1 ≤ cost size p := by
  rw [cost]
  split <;> omega

theorem Advances.yields_token (h : Advances lexer size) (s : σ)
    (bad : Failure → Prop) :
    Yields (fun q => get_token lexer s = .ok q) bad (get_token lexer s) := by
  obtain ⟨token, s', hs⟩ := h.total s
  rw [get_token, hs]
  rfl

theorem Advances.smaller_of_get_token (h : Advances lexer size) {s : σ}
    {q : Parser σ} (hq : get_token lexer s = .ok q)
    (hkind : q.last_token.kind ≠ .end_of_input) :
    size q.rest < size s := by
  rw [get_token] at hq
  split at hq
  next token s' hs =>
    cases hq
    exact h.smaller hs hkind
  next => cases hq

theorem Advances.cost_get_token (h : Advances lexer size) {p q : Parser σ}
    (hkind : p.last_token.kind ≠ .end_of_input)
    (hq : get_token lexer p.rest = .ok q) :
    cost size q + 2 ≤ cost size p := by
  rw [cost, cost, if_neg hkind]
  split
  next => omega
  next hne =>
    have := h.smaller_of_get_token hq hne
    omega

theorem Advances.cost_reads (h : Advances lexer size) {p q : Parser σ}
    {xs : List Lexeme} (hreads : Reads lexer p xs q) (hne : xs ≠ []) :
    cost size q + 2 ≤ cost size p := by
  induction hreads with
  | nil => exact absurd rfl hne
  | @cons p q r xs hkind hq hrest ih =>
      have hstep := h.cost_get_token hkind hq
      cases hrest with
      | nil => exact hstep
      | cons => exact (ih (List.cons_ne_nil _ _)).trans (by omega)

theorem Advances.string_of_scanned (h : Advances lexer size) {p : Parser σ}
    (hp : Scanned lexer p) (hkind : p.last_token.kind = .value_string) :
    Yields (fun s => get_string p.last_token = .ok s) (Fails lexer p)
      (get_string p.last_token) := by
  obtain ⟨s, hs⟩ := hp
  rw [get_token] at hs
  split at hs
  next token s' hscan =>
    cases hs
    have hstring := h.string hscan hkind
    cases hget : get_string token with
    | ok => rfl
    | error e =>
        rw [hget] at hstring
        exact .inl hstring
  next => cases hs

theorem yields_expect (t : token_type) (p : Parser σ) :
    Yields (fun _ => p.last_token.kind = t) (Fails lexer p)
      (expect t p.last_token) := by
  rw [expect]
  split
  next => exact .inl trivial
  next heq => exact (not_ne_iff.mp heq).symm

theorem yields_unexpect (t : token_type) (p : Parser σ) :
    Yields (fun _ => p.last_token.kind ≠ t) (Fails lexer p)
      (unexpect t p.last_token) := by
  rw [unexpect]
  split
  next => exact .inl trivial
  next hne => exact fun heq => hne heq.symm

theorem numberValue_error {x : Double} {e : Failure}
    (h : numberValue x = .error e) : e = .undefined := by
  cases x with
  | finite negative q =>
      simp only [numberValue] at h
      generalize (if negative = true then -(⌊q⌋₊ : ℤ) else ⌊q⌋₊) = n at h
      split at h
      · cases h
        rfl
      · split at h <;> cases h
  | infinite | nan =>
      cases h
      rfl

/-- What the three functions of the parser do at one amount of fuel. -/
structure ParserSound (lexer : Lexer σ) (size : σ → ℕ) (fuel : ℕ) :
    Prop where
  internal : ∀ {p : Parser σ}, Scanned lexer p → cost size p ≤ fuel →
    Yields (fun r => Read lexer p (.value r.1) r.2) (Fails lexer p)
      (parse_internal lexer fuel p)
  members : ∀ {p p' : Parser σ} (fields : List (Bytes × BasicJson)),
    Scanned lexer p' → skipSeparator lexer p = .ok p' →
    cost size p' + 1 ≤ fuel →
    Yields (fun r => ∃ more q, Read lexer p' (.members more) q ∧
        q.last_token.kind = .end_object ∧
        get_token lexer q.rest = .ok r.2 ∧
        r.1 = .object (assign fields more))
      (Fails lexer p') (parseMembers lexer fuel fields p)
  elements : ∀ {p p' : Parser σ} (elems : List BasicJson),
    Scanned lexer p' → skipSeparator lexer p = .ok p' →
    cost size p' + 1 ≤ fuel →
    Yields (fun r => ∃ more q, Read lexer p' (.elements more) q ∧
        q.last_token.kind = .end_array ∧
        get_token lexer q.rest = .ok r.2 ∧
        r.1 = .array (elems ++ more))
      (Fails lexer p') (parseElements lexer fuel elems p)

/-- A value of one token ends with the next token. -/
theorem Advances.yields_single (h : Advances lexer size) {p : Parser σ}
    {v : BasicJson} (hkind : p.last_token.kind ≠ .end_of_input)
    (hv : Derives [p.lexeme lexer] (.value v)) :
    Yields (fun r => Read lexer p (.value r.1) r.2) (Fails lexer p)
      (get_token lexer p.rest >>= fun q => .ok (v, q)) :=
  (h.yields_token p.rest _).bind fun _ hq => ⟨_, hv, .single hkind hq⟩

/-- The first token behind an opening bracket. -/
theorem Advances.yields_open (h : Advances lexer size) {p : Parser σ}
    (hkind : p.last_token.kind ≠ .end_of_input) :
    Yields (fun q => Scanned lexer q ∧ Reads lexer p [p.lexeme lexer] q ∧
        cost size q + 2 ≤ cost size p)
      (Fails lexer p) (get_token lexer p.rest) :=
  (h.yields_token p.rest _).imp
    (fun _ hq => ⟨⟨_, hq⟩, .single hkind hq, h.cost_get_token hkind hq⟩)
    fun _ he => he

theorem Advances.sound_object (h : Advances lexer size) {fuel : ℕ}
    (ih : ParserSound lexer size fuel) {p : Parser σ}
    (hfuel : cost size p ≤ fuel + 1)
    (hkind : p.last_token.kind = .begin_object) :
    Yields (fun r => Read lexer p (.value r.1) r.2) (Fails lexer p)
      (parse_internal lexer (fuel + 1) p) := by
  rw [parse_internal]
  simp only [hkind]
  refine (h.yields_open (by rw [hkind]; decide)).bind ?_
  rintro q ⟨hscanned, hreads, hcost⟩
  split
  next hclose =>
    refine (h.yields_token q.rest _).bind fun r hr => ?_
    exact ⟨_, .emptyObject (o := p.lexeme lexer) (c := q.lexeme lexer) hkind
      hclose,
      hreads.append (.single (by rw [hclose]; decide) hr)⟩
  next =>
    refine Yields.bind ((yields_unexpect _ q).imp (fun _ hne => hne)
      fun _ => Fails.before hreads) fun _ hne => ?_
    refine (ih.members [] hscanned (skipSeparator_ok lexer hne)
      (by omega)).imp ?_ fun _ => Fails.before hreads
    rintro r ⟨more, q', ⟨xs, hxs, hmembers⟩, hclose, hr, hv⟩
    rw [hv]
    exact ⟨_, .object (o := p.lexeme lexer) (c := q'.lexeme lexer) hkind hxs
      hclose, hreads.append
      (hmembers.append (.single (by rw [hclose]; decide) hr))⟩

theorem Advances.sound_array (h : Advances lexer size) {fuel : ℕ}
    (ih : ParserSound lexer size fuel) {p : Parser σ}
    (hfuel : cost size p ≤ fuel + 1)
    (hkind : p.last_token.kind = .begin_array) :
    Yields (fun r => Read lexer p (.value r.1) r.2) (Fails lexer p)
      (parse_internal lexer (fuel + 1) p) := by
  rw [parse_internal]
  simp only [hkind]
  refine (h.yields_open (by rw [hkind]; decide)).bind ?_
  rintro q ⟨hscanned, hreads, hcost⟩
  split
  next hclose =>
    refine (h.yields_token q.rest _).bind fun r hr => ?_
    exact ⟨_, .emptyArray (o := p.lexeme lexer) (c := q.lexeme lexer) hkind
      hclose,
      hreads.append (.single (by rw [hclose]; decide) hr)⟩
  next =>
    refine Yields.bind ((yields_unexpect _ q).imp (fun _ hne => hne)
      fun _ => Fails.before hreads) fun _ hne => ?_
    refine (ih.elements [] hscanned (skipSeparator_ok lexer hne)
      (by omega)).imp ?_ fun _ => Fails.before hreads
    rintro r ⟨more, q', ⟨xs, hxs, helements⟩, hclose, hr, hv⟩
    rw [hv]
    exact ⟨_, .array (o := p.lexeme lexer) (c := q'.lexeme lexer) hkind hxs
      hclose, hreads.append
      (helements.append (.single (by rw [hclose]; decide) hr))⟩

theorem Advances.sound_number (h : Advances lexer size) {fuel : ℕ}
    {p : Parser σ} (hkind : p.last_token.kind = .value_number) :
    Yields (fun r => Read lexer p (.value r.1) r.2) (Fails lexer p)
      (parse_internal lexer (fuel + 1) p) := by
  rw [parse_internal]
  simp only [hkind]
  split
  next => exact .inl trivial
  next hnan =>
    refine (h.yields_token p.rest _).bind fun q hq => ?_
    cases hv : numberValue (get_number p.last_token
        (lexer.following p.rest)) with
    | ok v =>
        exact ⟨_, .number (x := p.lexeme lexer) hkind hnan hv,
          .single (by rw [hkind]; decide) hq⟩
    | error e =>
        obtain rfl := numberValue_error hv
        exact .inr ⟨rfl, [], p, .nil p, hkind, hnan, hv⟩

theorem Advances.sound_internal (h : Advances lexer size) {fuel : ℕ}
    (ih : ParserSound lexer size fuel) {p : Parser σ}
    (hp : Scanned lexer p) (hfuel : cost size p ≤ fuel + 1) :
    Yields (fun r => Read lexer p (.value r.1) r.2) (Fails lexer p)
      (parse_internal lexer (fuel + 1) p) := by
  cases hkind : p.last_token.kind with
  | begin_object => exact h.sound_object ih hfuel hkind
  | begin_array => exact h.sound_array ih hfuel hkind
  | value_number => exact h.sound_number hkind
  | literal_null =>
      rw [parse_internal]
      simp only [hkind]
      exact h.yields_single (by rw [hkind]; decide) (.null hkind)
  | literal_true =>
      rw [parse_internal]
      simp only [hkind]
      exact h.yields_single (by rw [hkind]; decide) (.yes hkind)
  | literal_false =>
      rw [parse_internal]
      simp only [hkind]
      exact h.yields_single (by rw [hkind]; decide) (.no hkind)
  | value_string =>
      rw [parse_internal]
      simp only [hkind]
      refine (h.string_of_scanned hp hkind).bind fun s hs => ?_
      exact h.yields_single (by rw [hkind]; decide) (.string hkind hs)
  | _ =>
      rw [parse_internal]
      simp only [hkind]
      exact .inl trivial

theorem Advances.sound_elements (h : Advances lexer size) {fuel : ℕ}
    (ih : ParserSound lexer size fuel) {p p' : Parser σ}
    (elems : List BasicJson) (hp : Scanned lexer p')
    (hskip : skipSeparator lexer p = .ok p')
    (hfuel : cost size p' + 1 ≤ fuel + 1) :
    Yields (fun r => ∃ more q, Read lexer p' (.elements more) q ∧
        q.last_token.kind = .end_array ∧
        get_token lexer q.rest = .ok r.2 ∧
        r.1 = .array (elems ++ more))
      (Fails lexer p') (parseElements lexer (fuel + 1) elems p) := by
  rw [parseElements, hskip, bind_ok]
  refine (ih.internal hp (by omega)).bind ?_
  rintro ⟨value, q⟩ ⟨xs, hxs, hreads⟩
  dsimp only at hxs hreads ⊢
  have hcost := h.cost_reads hreads hxs.ne_nil
  split
  next hsep =>
    have hsep' : q.last_token.kind ≠ .end_of_input := by
      rw [hsep]
      decide
    obtain ⟨token, s', hscan⟩ := h.total q.rest
    have hq' : get_token lexer q.rest = .ok ⟨token, s'⟩ := by
      rw [get_token, hscan]
    have hreads' := hreads.append (.single hsep' hq')
    have hskip' : skipSeparator lexer q = .ok ⟨token, s'⟩ := by
      rw [skipSeparator, if_pos hsep, hq']
    have hcost' := h.cost_get_token hsep' hq'
    refine (ih.elements (elems ++ [value]) ⟨_, hq'⟩ hskip'
      (by omega)).imp ?_ fun _ => Fails.before hreads'
    rintro r ⟨more, q'', ⟨ys, hys, hmore⟩, hclose, hr, hv⟩
    refine ⟨value :: more, q'',
      ⟨_, .elements (s := q.lexeme lexer) hxs hsep hys, ?_⟩, hclose, hr,
      by rw [hv, List.append_assoc]; rfl⟩
    exact hreads.append (.cons hsep' hq' hmore)
  next =>
    refine Yields.bind ((yields_expect _ q).imp (fun _ heq => heq)
      fun _ => Fails.before hreads) fun _ hclose => ?_
    refine (h.yields_token q.rest _).bind fun r hr => ?_
    exact ⟨[value], q, ⟨xs, .element hxs, hreads⟩, hclose, hr, rfl⟩

theorem Advances.sound_members (h : Advances lexer size) {fuel : ℕ}
    (ih : ParserSound lexer size fuel) {p p' : Parser σ}
    (fields : List (Bytes × BasicJson)) (hp : Scanned lexer p')
    (hskip : skipSeparator lexer p = .ok p')
    (hfuel : cost size p' + 1 ≤ fuel + 1) :
    Yields (fun r => ∃ more q, Read lexer p' (.members more) q ∧
        q.last_token.kind = .end_object ∧
        get_token lexer q.rest = .ok r.2 ∧
        r.1 = .object (assign fields more))
      (Fails lexer p') (parseMembers lexer (fuel + 1) fields p) := by
  rw [parseMembers, hskip, bind_ok]
  refine (yields_expect _ p').bind fun _ hk => ?_
  refine (h.string_of_scanned hp hk).bind fun key hkey => ?_
  refine (h.yields_open (by rw [hk]; decide)).bind ?_
  rintro p₁ ⟨-, hreads₁, hcost₁⟩
  refine Yields.bind ((yields_expect _ p₁).imp (fun _ heq => heq)
    fun _ => Fails.before hreads₁) fun _ hc => ?_
  refine (h.yields_token p₁.rest _).bind fun p₂ hp₂ => ?_
  have hc' : p₁.last_token.kind ≠ .end_of_input := by
    rw [hc]
    decide
  have hcost₂ := h.cost_get_token hc' hp₂
  have hreads₂ := hreads₁.append (.single hc' hp₂)
  refine Yields.bind ((ih.internal ⟨_, hp₂⟩ (by omega)).imp (fun _ hr => hr)
    fun _ => Fails.before hreads₂) ?_
  rintro ⟨value, q⟩ ⟨xs, hxs, hreads⟩
  dsimp only at hxs hreads ⊢
  have hcost := h.cost_reads hreads hxs.ne_nil
  have hfield := hreads₂.append hreads
  split
  next hsep =>
    have hsep' : q.last_token.kind ≠ .end_of_input := by
      rw [hsep]
      decide
    obtain ⟨token, s', hscan⟩ := h.total q.rest
    have hq' : get_token lexer q.rest = .ok ⟨token, s'⟩ := by
      rw [get_token, hscan]
    have hreads' := hfield.append (.single hsep' hq')
    have hskip' : skipSeparator lexer q = .ok ⟨token, s'⟩ := by
      rw [skipSeparator, if_pos hsep, hq']
    have hcost' := h.cost_get_token hsep' hq'
    refine (ih.members (setField key value fields) ⟨_, hq'⟩ hskip'
      (by omega)).imp ?_ fun _ => Fails.before hreads'
    rintro r ⟨more, q'', ⟨ys, hys, hmore⟩, hclose, hr, hv⟩
    refine ⟨(key, value) :: more, q'',
      ⟨_, .members (k := p'.lexeme lexer) (c := p₁.lexeme lexer)
        (s := q.lexeme lexer) hk hkey hc hxs hsep hys, ?_⟩, hclose, hr, hv⟩
    exact hfield.append (.cons hsep' hq' hmore)
  next =>
    refine Yields.bind ((yields_expect _ q).imp (fun _ heq => heq)
      fun _ => Fails.before hfield) fun _ hclose => ?_
    refine (h.yields_token q.rest _).bind fun r hr => ?_
    exact ⟨[(key, value)], q,
      ⟨_, .member (k := p'.lexeme lexer) (c := p₁.lexeme lexer) hk hkey hc hxs,
        hfield⟩, hclose, hr, rfl⟩

theorem Advances.sound (h : Advances lexer size) (fuel : ℕ) :
    ParserSound lexer size fuel := by
  induction fuel with
  | zero =>
      constructor
      · intro p _ hfuel
        have : 1 ≤ cost size p := cost_pos p
        omega
      · intro p p' _ _ _ hfuel
        omega
      · intro p p' _ _ _ hfuel
        omega
  | succ fuel ih =>
      exact ⟨h.sound_internal ih, fun fields => h.sound_members ih fields,
        fun elems => h.sound_elements ih elems⟩

end soundness

/-! ## Whole texts -/

section documents

variable {σ : Type} {lexer : Lexer σ} {size : σ → ℕ}

/-- Among the lexemes of a text, one is a number that does not fit. -/
def HasOverflow (lexer : Lexer σ) (s : σ) : Prop :=
  ∃ p xs q, get_token lexer s = .ok p ∧ Reads lexer p xs q ∧
    (q.lexeme lexer).Overflows

theorem Advances.cost_le (h : Advances lexer size) {s : σ} {p : Parser σ}
    (hp : get_token lexer s = .ok p) : cost size p ≤ 2 * size s + 1 := by
  rw [cost]
  split
  next => omega
  next hne =>
    have := h.smaller_of_get_token hp hne
    omega

/-- What the parser does with a text: it gives a value the text derives, or it
fails as it may. -/
theorem Advances.yields_parse (h : Advances lexer size) {fuel : ℕ} {s : σ}
    (hfuel : 2 * size s + 1 ≤ fuel) :
    Yields (fun v => ∃ xs, Tokenizes lexer s xs ∧ Derives xs (.value v))
      (fun e => e.Reported ∨ e = .undefined ∧ HasOverflow lexer s)
      (parse lexer fuel s) := by
  refine (h.yields_token s _).bind fun p hp => ?_
  have hbad : ∀ e, Fails lexer p e →
      e.Reported ∨ e = .undefined ∧ HasOverflow lexer s := by
    rintro e (he | ⟨rfl, xs, q, hreads, hover⟩)
    · exact .inl he
    · exact .inr ⟨rfl, p, xs, q, hp, hreads, hover⟩
  refine Yields.bind (((h.sound fuel).internal ⟨s, hp⟩
    ((h.cost_le hp).trans hfuel)).imp (fun _ hr => hr) hbad) ?_
  rintro ⟨v, q⟩ ⟨xs, hxs, hreads⟩
  dsimp only at hxs hreads ⊢
  refine Yields.bind ((yields_expect _ q).imp (fun _ heq => heq)
    fun e he => hbad e (he.before hreads)) fun _ hend => ?_
  exact ⟨xs, ⟨p, q, hp, hreads, hend⟩, hxs⟩

/-- A text has no more lexemes than characters. -/
theorem Advances.length_le (h : Advances lexer size) {s : σ}
    {xs : List Lexeme} (hxs : Tokenizes lexer s xs) : xs.length ≤ size s := by
  obtain ⟨p, q, hp, hreads, -⟩ := hxs
  have hlen : ∀ {p q : Parser σ} {xs : List Lexeme}, Reads lexer p xs q →
      2 * xs.length ≤ cost size p := by
    intro p q xs hreads
    induction hreads with
    | nil => exact Nat.zero_le _
    | cons hkind hq _ ih =>
        have := h.cost_get_token hkind hq
        rw [List.length_cons]
        omega
  have := hlen hreads
  have := h.cost_le hp
  omega

/-- The parser accepts exactly what the grammar derives, with its values. -/
theorem Advances.parse_eq_ok (h : Advances lexer size) {fuel : ℕ} {s : σ}
    (hfuel : 2 * size s + 1 ≤ fuel) (v : BasicJson) :
    parse lexer fuel s = .ok v ↔
      ∃ xs, Tokenizes lexer s xs ∧ Derives xs (.value v) := by
  constructor
  · intro hv
    have hyields := h.yields_parse hfuel
    rw [hv] at hyields
    exact hyields
  · rintro ⟨xs, hxs, hv⟩
    have hlen := h.length_le hxs
    obtain ⟨p, q, hp, hreads, hend⟩ := hxs
    have hvalue : parse_internal lexer fuel p = .ok (v, q) :=
      hv.parsed (by omega) hreads
    rw [parse, hp, bind_ok, hvalue, bind_ok]
    dsimp only
    rw [expect_ok hend]
    rfl

end documents

end Rc2Compute.Format
