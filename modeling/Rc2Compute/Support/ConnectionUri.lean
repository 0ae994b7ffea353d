import Rc2Compute.Support.BigEndian
import Rc2Compute.Support.CString
import Mathlib.Data.List.Infix
import Mathlib.Data.List.TakeWhile

/-!
# Connection URIs

A URI `postgresql://user@host/dbname?key=value&…` as a client library reads it
from a C string: each component ends at its delimiter, and `%` and two
hexadecimal digits stand for a byte.
-/

namespace Rc2Compute.ConnectionUri

/-! ## Bytes -/

/-- The bytes of a text. -/
def utf8 (text : List Char) : Bytes :=
  text.flatMap String.utf8EncodeChar

theorem utf8_cons (c : Char) (text : List Char) :
    utf8 (c :: text) = String.utf8EncodeChar c ++ utf8 text :=
  List.flatMap_cons

theorem utf8_append (text rest : List Char) :
    utf8 (text ++ rest) = utf8 text ++ utf8 rest :=
  List.flatMap_append

theorem utf8EncodeChar_length_pos (c : Char) :
    0 < (String.utf8EncodeChar c).length := by
  rw [String.length_utf8EncodeChar]
  exact c.utf8Size_pos

theorem length_le_length_utf8 (text : List Char) :
    text.length ≤ (utf8 text).length := by
  induction text with
  | nil => exact Nat.le_refl 0
  | cons c text ih =>
      have hc := utf8EncodeChar_length_pos c
      rw [utf8_cons, List.length_append, List.length_cons]
      omega

def hexDigit (c : Char) : Option ℕ :=
  "0123456789abcdef".toList.idxOf? c.toLower

/-- The bytes an encoded component stands for.  A zero byte may not be
encoded. -/
def percentDecode : List Char → Option Bytes
  | '%' :: high :: low :: rest => do
      let byte := 16 * (← hexDigit high) + (← hexDigit low)
      let bytes ← percentDecode rest
      if byte = 0 then none else some (UInt8.ofNat byte :: bytes)
  | c :: rest =>
      if c = '%' then none
      else do
        let bytes ← percentDecode rest
        some (String.utf8EncodeChar c ++ bytes)
  | [] => some []

theorem percentDecode_cons {c : Char} (hc : c ≠ '%') (rest : List Char) :
    percentDecode (c :: rest) =
      (percentDecode rest).map (String.utf8EncodeChar c ++ ·) := by
  rw [percentDecode.eq_2 c rest fun _ _ _ h _ => hc h, if_neg hc]
  cases percentDecode rest with
  | none => rfl
  | some bytes => rfl

/-- A component without escapes stands for itself. -/
theorem percentDecode_of_notMem {text : List Char} (h : '%' ∉ text) :
    percentDecode text = some (utf8 text) := by
  induction text with
  | nil => rfl
  | cons c text ih =>
      rw [List.mem_cons, not_or] at h
      rw [percentDecode_cons (Ne.symm h.1), ih h.2, utf8_cons]
      rfl

/-- An escape is shorter once it is decoded. -/
theorem length_percentDecode {text : List Char} {bytes : Bytes}
    (h : percentDecode text = some bytes) :
    bytes.length ≤ (utf8 text).length ∧
      ('%' ∈ text → bytes.length < (utf8 text).length) := by
  fun_induction percentDecode text generalizing bytes with
  | case1 high low rest ih =>
      simp only [Option.bind_eq_bind, Option.bind_eq_some_iff] at h
      obtain ⟨_, -, _, -, bytes', hrest, hsome⟩ := h
      have hlength := (ih hrest).1
      have hhigh := utf8EncodeChar_length_pos high
      have hlow := utf8EncodeChar_length_pos low
      have hpercent := utf8EncodeChar_length_pos '%'
      split at hsome
      · cases hsome
      · obtain rfl := Option.some.inj hsome
        simp only [utf8_cons, List.length_append, List.length_cons]
        omega
  | case2 rest hrest => cases h
  | case3 c rest hescape hc ih =>
      simp only [Option.bind_eq_bind, Option.bind_eq_some_iff] at h
      obtain ⟨bytes', hrest, hsome⟩ := h
      obtain rfl := Option.some.inj hsome
      obtain ⟨hle, hlt⟩ := ih hrest
      simp only [utf8_cons, List.length_append]
      refine ⟨by omega, fun hmem => ?_⟩
      have hmem' := (List.mem_cons.mp hmem).resolve_left (Ne.symm hc)
      have := hlt hmem'
      omega
  | case4 =>
      obtain rfl := Option.some.inj h
      exact ⟨Nat.le_refl _, fun hmem => (by cases hmem)⟩

/-! ## Components -/

/-- A character that ends no component. -/
def inside (others : List Char) (delimiter c : Char) : Bool :=
  c ∉ delimiter :: others

/-- The text before the first delimiter, and the text behind it, if the
delimiter is the right one. -/
def component (others : List Char) (delimiter : Char) (text : List Char) :
    Option (List Char × List Char) :=
  match text.dropWhile (inside others delimiter) with
  | c :: rest =>
      if c = delimiter then
        some (text.takeWhile (inside others delimiter), rest)
      else none
  | [] => none

section component

variable {others : List Char} {delimiter : Char}

theorem component_append {token : List Char}
    (h : ∀ c ∈ token, c ∉ delimiter :: others) (rest : List Char) :
    component others delimiter (token ++ delimiter :: rest) =
      some (token, rest) := by
  have hinside : ∀ c ∈ token, inside others delimiter c = true :=
    fun c hc => decide_eq_true (h c hc)
  have hdelimiter : ¬inside others delimiter delimiter = true := by
    simp [inside]
  rw [component, List.dropWhile_append_of_pos hinside,
    List.dropWhile_cons_of_neg hdelimiter,
    List.takeWhile_append_of_pos hinside,
    List.takeWhile_cons_of_neg hdelimiter, List.append_nil]
  exact if_pos rfl

theorem eq_of_component {text token rest : List Char}
    (h : component others delimiter text = some (token, rest)) :
    text = token ++ delimiter :: rest ∧
      ∀ c ∈ token, c ∉ delimiter :: others := by
  rw [component] at h
  split at h
  next c rest' hdrop =>
    split at h
    next hc =>
      subst hc
      obtain ⟨rfl, rfl⟩ := Prod.mk.inj (Option.some.inj h)
      constructor
      · rw [← hdrop, List.takeWhile_append_dropWhile]
      · intro c hc
        have hinside := List.mem_takeWhile_imp hc
        exact of_decide_eq_true hinside
    next => cases h
  next => cases h

end component

/-- A component ends before the one it is compared with, if that one is ended
by the same delimiter. -/
theorem prefix_of_component {delimiter : Char}
    {token field rest behind : List Char} (hnot : delimiter ∉ token)
    (h : token ++ delimiter :: rest <+: field ++ delimiter :: behind) :
    token <+: field := by
  have htoken : token <+: field ++ delimiter :: behind :=
    (List.prefix_append _ _).trans h
  rcases List.prefix_or_prefix_of_prefix htoken
    (List.prefix_append field (delimiter :: behind)) with hle | ⟨t, rfl⟩
  · exact hle
  · match t with
    | [] =>
        rw [List.append_nil]
    | c :: t =>
        rw [List.append_assoc, List.prefix_append_right_inj, List.cons_append,
          List.cons_prefix_cons] at h
        exact absurd (List.mem_append_right _ (h.1 ▸ List.mem_cons_self)) hnot

/-- A component that is decoded to a field it lies in is the field. -/
theorem eq_of_percentDecode {token field : List Char} (h : token <+: field)
    (hdecode : percentDecode token = some (utf8 field)) :
    token = field ∧ '%' ∉ field := by
  obtain ⟨t, rfl⟩ := h
  obtain ⟨hle, hlt⟩ := length_percentDecode hdecode
  have ht := length_le_length_utf8 t
  rw [utf8_append, List.length_append] at hle hlt
  have hnil : t = [] := List.length_eq_zero_iff.mp (by omega)
  subst hnil
  refine ⟨(List.append_nil _).symm, fun hmem => ?_⟩
  rw [List.append_nil] at hmem
  have := hlt hmem
  omega

/-! ## URIs -/

/-- The characters a URI reserves for delimiters. -/
def reserved : List Char := ":/?#[]@!$&'()*+,;=".toList

/-- The delimiters besides those between the four components: `:` may begin a
password or a port, and a value may not have a second `=`.  A URI with one of
them has a component more, or is not well formed. -/
structure UriGrammar where
  userEnds : List Char
  hostEnds : List Char
  valueEnds : List Char
  delimiters : ∀ c ∈ userEnds ++ hostEnds ++ valueEnds, c ∈ reserved

/-- The delimiters between the components, and no others. -/
def outline : UriGrammar where
  userEnds := []
  hostEnds := []
  valueEnds := []
  delimiters := by decide

/-- The delimiters of a client library that knows passwords before the host,
ports, lists of hosts and numerical addresses. -/
def complete : UriGrammar where
  userEnds := ":/".toList
  hostEnds := ":?,[".toList
  valueEnds := "=".toList
  delimiters := by decide

/-- What a URI says. -/
structure Options where
  user : Bytes
  host : Bytes
  dbname : Bytes
  params : List (Bytes × Bytes)
deriving DecidableEq, Repr

def scheme : List Char := "postgresql://".toList

/-- A text as far as a C string holds it. -/
def cString (text : List Char) : List Char :=
  text.takeWhile (· ≠ Char.ofNat 0)

variable (g : UriGrammar)

def parameter (text : List Char) : Option (Bytes × Bytes) := do
  let (key, value) ← component [] '=' text
  let key ← percentDecode key
  let bytes ← percentDecode value
  if ∀ c ∈ value, c ∉ g.valueEnds then some (key, bytes) else none

def parameters (query : List Char) : Option (List (Bytes × Bytes)) :=
  (query.splitOn '&').mapM (parameter g)

theorem parameters_cons {text : List Char} (h : '&' ∉ text)
    (rest : List Char) :
    parameters g (text ++ '&' :: rest) =
      (parameter g text).bind fun param =>
        (parameters g rest).map (param :: ·) := by
  rw [parameters, List.splitOn_append_cons_self_of_not_mem h, List.mapM_cons]
  cases parameter g text with
  | none => rfl
  | some param =>
      rw [parameters]
      cases List.mapM (parameter g) (rest.splitOn '&') with
      | none => rfl
      | some params => rfl

theorem parameters_of_notMem {text : List Char} (h : '&' ∉ text) :
    parameters g text = (parameter g text).map ([·]) := by
  rw [parameters, List.splitOn_eq_singleton h, List.mapM_cons, List.mapM_nil]
  cases parameter g text with
  | none => rfl
  | some param => rfl

theorem parameters_ne_nil (query : List Char) :
    parameters g query ≠ some [] := by
  intro h
  rw [parameters] at h
  match hsplit : query.splitOn '&' with
  | [] => exact List.splitOn_ne_nil '&' query hsplit
  | text :: texts =>
      rw [hsplit, List.mapM_cons] at h
      cases hparam : parameter g text with
      | none =>
          rw [hparam] at h
          cases h
      | some param =>
          cases hparams : List.mapM (parameter g) texts with
          | none =>
              rw [hparam, hparams] at h
              cases h
          | some params =>
              rw [hparam, hparams] at h
              cases h

/-- A parameter whose key stands for itself. -/
theorem parameter_iff {key value : List Char} {bytes : Bytes}
    (hkey : ∀ c ∈ key, c ≠ '=' ∧ c ≠ '%') :
    parameter g (key ++ '=' :: value) = some (utf8 key, bytes) ↔
      percentDecode value = some bytes ∧ ∀ c ∈ value, c ∉ g.valueEnds := by
  have hcomponent : component [] '=' (key ++ '=' :: value) =
      some (key, value) :=
    component_append (fun c hc => by simpa using (hkey c hc).1) value
  have hdecode : percentDecode key = some (utf8 key) :=
    percentDecode_of_notMem fun hmem => (hkey '%' hmem).2 rfl
  rw [parameter, hcomponent, Option.bind_eq_bind, Option.bind_some]
  dsimp only
  rw [hdecode, Option.bind_eq_bind, Option.bind_some]
  cases percentDecode value with
  | none => simp
  | some bytes' => simp [and_comm]

/-- A query that is one parameter. -/
theorem parameters_singleton_iff {key value : List Char} {bytes : Bytes}
    (hkey : ∀ c ∈ key, c ≠ '=' ∧ c ≠ '%') (hamp : '&' ∉ key) :
    parameters g (key ++ '=' :: value) = some [(utf8 key, bytes)] ↔
      '&' ∉ value ∧ percentDecode value = some bytes ∧
        ∀ c ∈ value, c ∉ g.valueEnds := by
  by_cases hvalue : '&' ∈ value
  · constructor
    · intro h
      obtain ⟨first, rest, rfl, hfirst⟩ := List.eq_append_cons_of_mem hvalue
      have hnot : '&' ∉ key ++ '=' :: first := by
        rw [List.mem_append, List.mem_cons, not_or, not_or]
        exact ⟨hamp, by decide, hfirst⟩
      have hsplit := parameters_cons g hnot rest
      rw [List.append_assoc, List.cons_append, h] at hsplit
      cases hparam : parameter g (key ++ '=' :: first) with
      | none =>
          rw [hparam] at hsplit
          cases hsplit
      | some param =>
          rw [hparam, Option.bind_some] at hsplit
          cases hrest : parameters g rest with
          | none =>
              rw [hrest] at hsplit
              cases hsplit
          | some params =>
              rw [hrest] at hsplit
              have hcons := Option.some.inj hsplit
              have hnil : [] = params := (List.cons.inj hcons).2
              exact absurd (hnil ▸ hrest) (parameters_ne_nil g rest)
    · exact fun h => absurd hvalue h.1
  · have hnot : '&' ∉ key ++ '=' :: value := by
      rw [List.mem_append, List.mem_cons, not_or, not_or]
      exact ⟨hamp, by decide, hvalue⟩
    rw [parameters_of_notMem g hnot]
    have hmap : (parameter g (key ++ '=' :: value)).map ([·]) =
        some [(utf8 key, bytes)] ↔
          parameter g (key ++ '=' :: value) = some (utf8 key, bytes) := by
      cases parameter g (key ++ '=' :: value) with
      | none => simp
      | some param => simp
    rw [hmap, parameter_iff g hkey]
    exact ⟨fun h => ⟨hvalue, h⟩, fun h => h.2⟩

/-- The components of a URI in a C string, which ends at the first zero
byte. -/
def parse (uri : List Char) : Option Options := do
  let text ← (cString uri).dropPrefix? scheme
  let (user, text) ← component g.userEnds '@' text
  let (host, text) ← component g.hostEnds '/' text
  let (dbname, query) ← component [] '?' text
  let user ← percentDecode user
  let host ← percentDecode host
  let dbname ← percentDecode dbname
  let params ← parameters g query
  some ⟨user, host, dbname, params⟩

/-- A component that stands for itself where these delimiters are. -/
def IsPlain (delimiters text : List Char) : Prop :=
  ∀ c ∈ text, c ∉ delimiters ∧ c ≠ '%' ∧ c ≠ Char.ofNat 0

instance (delimiters text : List Char) : Decidable (IsPlain delimiters text) :=
  List.decidableBAll
    (fun c => c ∉ delimiters ∧ c ≠ '%' ∧ c ≠ Char.ofNat 0) text

theorem IsPlain.notMem {delimiter : Char} {others text : List Char}
    (h : IsPlain (delimiter :: others) text) : delimiter ∉ text :=
  fun hmem => (h delimiter hmem).1 List.mem_cons_self

theorem IsPlain.nulFree {delimiters text : List Char}
    (h : IsPlain delimiters text) : ∀ c ∈ text, c ≠ Char.ofNat 0 :=
  fun c hc => (h c hc).2.2

theorem IsPlain.percentDecode_eq {delimiters text : List Char}
    (h : IsPlain delimiters text) : percentDecode text = some (utf8 text) :=
  percentDecode_of_notMem fun hmem => (h '%' hmem).2.1 rfl

/-- A URI made of four texts. -/
def build (user host dbname query : List Char) : List Char :=
  scheme ++ (user ++ '@' :: (host ++ '/' :: (dbname ++ '?' :: query)))

theorem cString_append {text : List Char} (h : ∀ c ∈ text, c ≠ Char.ofNat 0)
    (rest : List Char) : cString (text ++ rest) = text ++ cString rest :=
  List.takeWhile_append_of_pos fun c hc => decide_eq_true (h c hc)

theorem cString_cons {c : Char} (h : c ≠ Char.ofNat 0) (rest : List Char) :
    cString (c :: rest) = c :: cString rest :=
  List.takeWhile_cons_of_pos (decide_eq_true h)

theorem ne_of_mem_cString {text : List Char} {c : Char}
    (h : c ∈ cString text) : c ≠ Char.ofNat 0 := by
  have hinside := List.mem_takeWhile_imp h
  exact of_decide_eq_true hinside

/-- A text that a C string holds to its end. -/
theorem cString_eq_self {text : List Char} (h : ∀ c ∈ text, c ≠ Char.ofNat 0) :
    cString text = text := by
  have happend := cString_append h []
  rwa [List.append_nil, show cString [] = [] from rfl, List.append_nil]
    at happend

/-- The last parameter of a query in a C string. -/
theorem parameters_cString_iff {key value : List Char}
    (hkey : ∀ c ∈ key, c ≠ '=' ∧ c ≠ '%') (hamp : '&' ∉ key) :
    parameters g (key ++ '=' :: cString value) =
        some [(utf8 key, utf8 value)] ↔
      IsPlain ('&' :: g.valueEnds) value := by
  rw [parameters_singleton_iff g hkey hamp]
  constructor
  · rintro ⟨hnot, hdecode, hends⟩
    obtain ⟨hvalue, hpercent⟩ :=
      eq_of_percentDecode (List.takeWhile_prefix _) hdecode
    intro c hc
    rw [← hvalue] at hc
    refine ⟨?_, ?_, ne_of_mem_cString hc⟩
    · rw [List.mem_cons, not_or]
      refine ⟨?_, hends c hc⟩
      rintro rfl
      exact hnot hc
    · rintro rfl
      exact hpercent (hvalue ▸ hc)
  · intro h
    rw [cString_eq_self fun c hc => (h c hc).2.2]
    refine ⟨fun hmem => (h '&' hmem).1 List.mem_cons_self,
      h.percentDecode_eq, fun c hc hends => ?_⟩
    exact (h c hc).1 (List.mem_cons_of_mem _ hends)

/-- A query of two parameters. -/
theorem parameters_pair {first second : List Char} {param param' : Bytes × Bytes}
    (hfirst : IsPlain ['&'] first) (hsecond : IsPlain ['&'] second)
    (hparam : parameter g first = some param)
    (hparam' : parameter g second = some param') :
    parameters g (cString (first ++ '&' :: second)) =
      some [param, param'] := by
  rw [cString_append hfirst.nulFree, cString_cons (by decide),
    cString_eq_self hsecond.nulFree,
    parameters_cons g hfirst.notMem, hparam, Option.bind_some,
    parameters_of_notMem g hsecond.notMem, hparam']
  rfl

/-- A query of three parameters. -/
theorem parameters_triple_iff {first second key value : List Char}
    {param param' : Bytes × Bytes} (hfirst : IsPlain ['&'] first)
    (hsecond : IsPlain ['&'] second) (hkey : IsPlain ['&', '='] key)
    (hparam : parameter g first = some param)
    (hparam' : parameter g second = some param') :
    parameters g (cString (first ++ '&' :: (second ++
        '&' :: (key ++ '=' :: value)))) =
        some [param, param', (utf8 key, utf8 value)] ↔
      IsPlain ('&' :: g.valueEnds) value := by
  have hplain : ∀ c ∈ key, c ≠ '=' ∧ c ≠ '%' := by
    intro c hc
    refine ⟨?_, (hkey c hc).2.1⟩
    rintro rfl
    exact (hkey '=' hc).1 (by decide)
  rw [cString_append hfirst.nulFree, cString_cons (by decide),
    cString_append hsecond.nulFree, cString_cons (by decide),
    cString_append hkey.nulFree, cString_cons (by decide),
    parameters_cons g hfirst.notMem, hparam, Option.bind_some,
    parameters_cons g hsecond.notMem, hparam', Option.bind_some,
    ← parameters_cString_iff g hplain hkey.notMem]
  cases parameters g (key ++ '=' :: cString value) with
  | none => simp
  | some params => simp

section build

variable {user host dbname query : List Char}

theorem cString_build (huser : ∀ c ∈ user, c ≠ Char.ofNat 0)
    (hhost : ∀ c ∈ host, c ≠ Char.ofNat 0)
    (hdbname : ∀ c ∈ dbname, c ≠ Char.ofNat 0) :
    cString (build user host dbname query) =
      build user host dbname (cString query) := by
  rw [build, cString_append (by decide), cString_append huser,
    cString_cons (by decide), cString_append hhost, cString_cons (by decide),
    cString_append hdbname, cString_cons (by decide), build]

/-- A component of a URI made of texts is one of these texts, if it is decoded
to it. -/
theorem field_of_component {others : List Char} {delimiter : Char}
    {text token rest field behind : List Char}
    (hcomponent : component others delimiter text = some (token, rest))
    (hstart : text <+: field ++ delimiter :: behind)
    (hdecode : percentDecode token = some (utf8 field)) :
    text = field ++ delimiter :: rest ∧ rest <+: behind ∧
      ∀ c ∈ field, c ∉ delimiter :: others ∧ c ≠ '%' := by
  obtain ⟨rfl, htoken⟩ := eq_of_component hcomponent
  have hnot : delimiter ∉ token :=
    fun hmem => htoken delimiter hmem List.mem_cons_self
  obtain ⟨rfl, hpercent⟩ :=
    eq_of_percentDecode (prefix_of_component hnot hstart) hdecode
  rw [List.prefix_append_right_inj, List.cons_prefix_cons] at hstart
  refine ⟨rfl, hstart.2, fun c hc => ⟨htoken c hc, ?_⟩⟩
  rintro rfl
  exact hpercent hc

/-- A URI made of four texts that says these texts. -/
theorem plain_of_parse_build {params : List (Bytes × Bytes)}
    (h : parse g (build user host dbname query) =
      some ⟨utf8 user, utf8 host, utf8 dbname, params⟩) :
    IsPlain ('@' :: g.userEnds) user ∧ IsPlain ('/' :: g.hostEnds) host ∧
      IsPlain ['?'] dbname ∧ parameters g (cString query) = some params := by
  simp only [parse, Option.bind_eq_bind, Option.bind_eq_some_iff,
    Option.some.injEq, Prod.exists] at h
  obtain ⟨text, hscheme, token, text', huser, token', text'', hhost,
    token'', query', hdbname, bytes, hbytes, bytes', hbytes', bytes'',
    hbytes'', params', hparams, hoptions⟩ := h
  obtain ⟨rfl, rfl, rfl, rfl⟩ := Options.mk.inj hoptions
  obtain ⟨scheme', htext, hbeq⟩ := List.dropPrefix?_eq_some_iff.mp hscheme
  rw [eq_of_beq hbeq] at htext
  have hstart := List.takeWhile_prefix (l := build user host dbname query)
    (decide <| · ≠ Char.ofNat 0)
  rw [← cString, htext, build, List.prefix_append_right_inj] at hstart
  obtain ⟨rfl, hstart', hplain⟩ := field_of_component huser hstart hbytes
  obtain ⟨rfl, hstart'', hplain'⟩ := field_of_component hhost hstart' hbytes'
  obtain ⟨rfl, -, hplain''⟩ := field_of_component hdbname hstart'' hbytes''
  have hnul : ∀ c ∈ scheme ++ (user ++ '@' :: (host ++ '/' ::
      (dbname ++ '?' :: query'))), c ≠ Char.ofNat 0 :=
    fun c hc => ne_of_mem_cString (htext ▸ hc)
  have huser' : ∀ c ∈ user, c ≠ Char.ofNat 0 :=
    fun c hc => hnul c (by simp [hc])
  have hhost' : ∀ c ∈ host, c ≠ Char.ofNat 0 :=
    fun c hc => hnul c (by simp [hc])
  have hdbname' : ∀ c ∈ dbname, c ≠ Char.ofNat 0 :=
    fun c hc => hnul c (by simp [hc])
  have hquery : query' = cString query := by
    rw [cString_build huser' hhost' hdbname', build] at htext
    simpa using htext.symm
  refine ⟨fun c hc => ?_, fun c hc => ?_, fun c hc => ?_, hquery ▸ hparams⟩
  · exact ⟨(hplain c hc).1, (hplain c hc).2, huser' c hc⟩
  · exact ⟨(hplain' c hc).1, (hplain' c hc).2, hhost' c hc⟩
  · exact ⟨(hplain'' c hc).1, (hplain'' c hc).2, hdbname' c hc⟩

/-- A URI made of four plain texts. -/
theorem parse_build_of_plain {params : List (Bytes × Bytes)}
    (huser : IsPlain ('@' :: g.userEnds) user)
    (hhost : IsPlain ('/' :: g.hostEnds) host)
    (hdbname : IsPlain ['?'] dbname)
    (hparams : parameters g (cString query) = some params) :
    parse g (build user host dbname query) =
      some ⟨utf8 user, utf8 host, utf8 dbname, params⟩ := by
  have hscheme : (cString (build user host dbname query)).dropPrefix?
      scheme = some (user ++ '@' :: (host ++ '/' ::
        (dbname ++ '?' :: cString query))) := by
    rw [cString_build huser.nulFree hhost.nulFree hdbname.nulFree]
    exact List.dropPrefix?_append_of_beq _ (by simp)
  rw [parse, hscheme, Option.bind_eq_bind, Option.bind_some,
    component_append (fun c hc => (huser c hc).1)]
  dsimp only [Option.bind_eq_bind, Option.bind_some]
  rw [component_append fun c hc => (hhost c hc).1]
  dsimp only [Option.bind_some]
  rw [component_append fun c hc => (hdbname c hc).1]
  dsimp only [Option.bind_some]
  rw [huser.percentDecode_eq, hhost.percentDecode_eq,
    hdbname.percentDecode_eq, hparams]
  rfl

/-- A URI made of four texts says these texts exactly if each is plain. -/
theorem parse_build_iff {params : List (Bytes × Bytes)} :
    parse g (build user host dbname query) =
        some ⟨utf8 user, utf8 host, utf8 dbname, params⟩ ↔
      IsPlain ('@' :: g.userEnds) user ∧ IsPlain ('/' :: g.hostEnds) host ∧
        IsPlain ['?'] dbname ∧
        parameters g (cString query) = some params := by
  constructor
  · exact plain_of_parse_build g
  · rintro ⟨huser, hhost, hdbname, hparams⟩
    exact parse_build_of_plain g huser hhost hdbname hparams

/-- The texts between two delimiters are determined by what is built of
them. -/
theorem append_cons_inj {delimiter : Char} {token token' rest rest' : List Char}
    (h : token ++ delimiter :: rest = token' ++ delimiter :: rest')
    (hnot : delimiter ∉ token) (hnot' : delimiter ∉ token') :
    token = token' ∧ rest = rest' := by
  have hle := prefix_of_component hnot ⟨[], (List.append_nil _).trans h⟩
  have hge := prefix_of_component hnot'
    ⟨[], (List.append_nil _).trans h.symm⟩
  obtain rfl := hle.eq_of_length (Nat.le_antisymm hle.length_le hge.length_le)
  exact ⟨rfl, (List.cons.inj (List.append_cancel_left h)).2⟩

theorem build_injective {user' host' dbname' query' : List Char}
    (huser : '@' ∉ user) (huser' : '@' ∉ user') (hhost : '/' ∉ host)
    (hhost' : '/' ∉ host') (hdbname : '?' ∉ dbname) (hdbname' : '?' ∉ dbname')
    (h : build user host dbname query = build user' host' dbname' query') :
    user = user' ∧ host = host' ∧ dbname = dbname' ∧ query = query' := by
  obtain ⟨rfl, hrest⟩ :=
    append_cons_inj (List.append_cancel_left h) huser huser'
  obtain ⟨rfl, hrest'⟩ := append_cons_inj hrest hhost hhost'
  obtain ⟨rfl, rfl⟩ := append_cons_inj hrest' hdbname hdbname'
  exact ⟨rfl, rfl, rfl, rfl⟩

end build

end Rc2Compute.ConnectionUri
