import Rc2Compute.Format.Acceptance
import Rc2Compute.Session.JsonCommand

/-!
# The documents of a session

The texts of a session are byte strings, here with one character for each
byte, and its documents are values of the json library.  With these two the
parser of a session is the parser of the library, reading from a stream.
-/

namespace Rc2Compute.Session

open Format (BasicJson Everywhere EverywhereIn EverywhereOf byte ascii
  parseStream parseString)

/-! ## Texts -/

/-- A byte string with one character for each byte. -/
def text (s : Bytes) : String :=
  String.ofList (s.map fun b => Char.ofNat b.toNat)

/-- The bytes of a text. -/
def octets (s : String) : Bytes := s.toList.map byte

/-- Every character stands for a byte. -/
def ByteText (s : String) : Prop := ∀ c ∈ s.toList, c.toNat < 256

theorem toNat_byte (c : Char) : (byte c).toNat = c.toNat % 256 := by
  rw [byte, Char.toUInt8, UInt32.toNat_toUInt8]
  rfl

theorem byte_ofNat (b : UInt8) : byte (Char.ofNat b.toNat) = b := by
  have hlt : b.toNat < 256 := b.toNat_lt
  have hvalid : b.toNat.isValidChar := Or.inl (by omega)
  have hchar : (Char.ofNat b.toNat).toNat = b.toNat := by
    rw [Char.ofNat, dif_pos hvalid]
    rfl
  rw [← UInt8.toNat_inj, toNat_byte, hchar, Nat.mod_eq_of_lt hlt]

theorem ofNat_byte {c : Char} (h : c.toNat < 256) :
    Char.ofNat (byte c).toNat = c := by
  rw [toNat_byte, Nat.mod_eq_of_lt h, Char.ofNat_toNat]

@[simp] theorem octets_text (s : Bytes) : octets (text s) = s := by
  rw [octets, text, String.toList_ofList, List.map_map]
  exact List.map_id'' byte_ofNat s

theorem text_octets {s : String} (h : ByteText s) : text (octets s) = s := by
  rw [text, octets, List.map_map, ← String.ofList_toList (s := s)]
  congr 1
  rw [String.toList_ofList]
  refine List.map_congr_left ?_ |>.trans (List.map_id _)
  exact fun c hc => ofNat_byte (h c hc)

theorem text_eq_empty {s : Bytes} (h : (text s).length < 1) : s = [] := by
  rw [text, String.length_ofList, List.length_map] at h
  exact List.length_eq_zero_iff.mp (by omega)

/-! ## Documents -/

/-- The number a double stands for. -/
def doubleValue : Double → ℚ
  | .finite negative q => if negative then -q else q
  | _ => 0

mutual

/-- A document of the library as the session sees it.  The order of the fields
does not matter to it; the last one is in front. -/
def toJson : BasicJson → Json
  | .null => .null
  | .boolean b => .boolean b
  | .number_integer n => .integer n
  | .number_float x => .float (doubleValue x)
  | .string s => .string (text s)
  | .array elems => .array (toElements elems)
  | .object fields => .object (toFields fields)

def toElements : List BasicJson → List Json
  | [] => []
  | elem :: elems => toJson elem :: toElements elems

def toFields : List (Bytes × BasicJson) → List (String × Json)
  | [] => []
  | (key, value) :: fields => toFields fields ++ [(text key, toJson value)]

end

theorem text_inj {s s' : Bytes} (h : text s = text s') : s = s' := by
  rw [← octets_text s, h, octets_text]

theorem lookup_cons_eq {α β : Type} [BEq α] [LawfulBEq α] [DecidableEq α]
    (key key' : α) (value : β) (fields : List (α × β)) :
    ((key, value) :: fields).lookup key' =
      if key' = key then some value else fields.lookup key' := by
  rw [List.lookup_cons]
  by_cases h : key' = key
  · rw [h, beq_self_eq_true, if_pos rfl]
  · rw [beq_false_of_ne h, if_neg h]

/-- A field the session looks up is the one the library finds. -/
theorem find?_toJson {fields : List (Bytes × BasicJson)}
    (h : (fields.map Prod.fst).Pairwise (· < ·)) (key : Bytes) :
    (toJson (.object fields)).find? (text key) =
      (fields.lookup key).map toJson := by
  rw [toJson, Json.find?]
  induction fields with
  | nil => rfl
  | cons field fields ih =>
      obtain ⟨k, v⟩ := field
      rw [List.map_cons, List.pairwise_cons] at h
      rw [toFields, List.lookup_append, ih h.2, lookup_cons_eq,
        lookup_cons_eq]
      by_cases hkey : key = k
      · have hnone : fields.lookup key = none := by
          refine List.lookup_eq_none_iff.mpr fun field hfield => ?_
          have hlt := h.1 field.1 (List.mem_map_of_mem hfield)
          rw [bne_iff_ne, hkey]
          exact fun heq => List.lt_irrefl _ (heq ▸ hlt)
        rw [hnone, hkey, if_pos rfl, if_pos rfl]
        rfl
      · rw [if_neg fun heq => hkey (text_inj heq), if_neg hkey]
        exact Option.or_none

mutual

/-- A document of the session as the library prints it. -/
def ofJson : Json → BasicJson
  | .null => .null
  | .boolean b => .boolean b
  | .integer n => .number_integer n
  | .float q => .number_float (.finite (q < 0) q.nnabs)
  | .string s => .string (octets s)
  | .array elems => .array (ofElements elems)
  | .object fields => .object (ofFields fields)

def ofElements : List Json → List BasicJson
  | [] => []
  | elem :: elems => ofJson elem :: ofElements elems

def ofFields : List (String × Json) → List (Bytes × BasicJson)
  | [] => []
  | (key, value) :: fields => ofFields fields ++ [(octets key, ofJson value)]

end

mutual

/-- Every character of every text stands for a byte. -/
def PlainJson : Json → Prop
  | .null | .boolean _ | .integer _ | .float _ => True
  | .string s => ByteText s
  | .array elems => PlainElements elems
  | .object fields => PlainFields fields

def PlainElements : List Json → Prop
  | [] => True
  | elem :: elems => PlainJson elem ∧ PlainElements elems

def PlainFields : List (String × Json) → Prop
  | [] => True
  | (key, value) :: fields =>
      ByteText key ∧ PlainJson value ∧ PlainFields fields

end

theorem doubleValue_ofJson (q : ℚ) :
    doubleValue (.finite (q < 0) q.nnabs) = q := by
  rw [doubleValue, Rat.coe_nnabs]
  by_cases hneg : q < 0
  · rw [if_pos (decide_eq_true hneg), abs_of_neg hneg, neg_neg]
  · rw [if_neg (by simpa using hneg), abs_of_nonneg (not_lt.mp hneg)]

theorem toFields_append (fields : List (Bytes × BasicJson)) (key : Bytes)
    (value : BasicJson) :
    toFields (fields ++ [(key, value)]) =
      (text key, toJson value) :: toFields fields := by
  induction fields with
  | nil => rfl
  | cons field fields ih =>
      obtain ⟨k, v⟩ := field
      rw [List.cons_append, toFields, ih, toFields]
      rfl

mutual

/-- A document that the session prints is the document it has. -/
theorem toJson_ofJson : ∀ {j : Json}, PlainJson j → toJson (ofJson j) = j
  | .null, _ | .boolean _, _ | .integer _, _ => by rw [ofJson, toJson]
  | .float q, _ => by rw [ofJson, toJson, doubleValue_ofJson]
  | .string _, h => by
      rw [PlainJson] at h
      rw [ofJson, toJson, text_octets h]
  | .array _, h => by
      rw [PlainJson] at h
      rw [ofJson, toJson, toElements_ofElements h]
  | .object _, h => by
      rw [PlainJson] at h
      rw [ofJson, toJson, toFields_ofFields h]

theorem toElements_ofElements : ∀ {elems : List Json}, PlainElements elems →
    toElements (ofElements elems) = elems
  | [], _ => by rw [ofElements, toElements]
  | _ :: _, h => by
      rw [PlainElements] at h
      rw [ofElements, toElements, toJson_ofJson h.1,
        toElements_ofElements h.2]

theorem toFields_ofFields : ∀ {fields : List (String × Json)},
    PlainFields fields → toFields (ofFields fields) = fields
  | [], _ => by rw [ofFields, toFields]
  | (_, _) :: _, h => by
      rw [PlainFields] at h
      rw [ofFields, toFields_append, text_octets h.1, toJson_ofJson h.2.1,
        toFields_ofFields h.2.2]

end

/-! ## The parser -/

/-- What the parser makes of a text, and `stray` of one with a number that is
beyond the range of integers. -/
def outcome (stray : Bytes → ParseOutcome) (s : Bytes) : ParseOutcome :=
  match parseStream s with
  | .ok doc => .parsed (toJson doc)
  | .error (.invalid_argument _) => .invalidArgument
  | .error (.out_of_range _) => .otherException
  | .error _ => stray s

/-- The fields of the text the session writes for itself. -/
def isDelta : Except Format.Failure BasicJson → Bool
  | .ok (.object [(key, .boolean true), (key', .string s)]) =>
      key = ascii "delta" ∧ key' = ascii "msg" ∧ s = ascii "listVariables"
  | _ => false

theorem eq_of_isDelta {r : Except Format.Failure BasicJson}
    (h : isDelta r = true) :
    r = .ok (.object [(ascii "delta", .boolean true),
      (ascii "msg", .string (ascii "listVariables"))]) := by
  rw [isDelta.eq_def] at h
  split at h
  · obtain ⟨rfl, rfl, rfl⟩ := of_decide_eq_true h
    rfl
  · cases h

theorem parseString_delta :
    parseString (octets listVariablesDelta) =
      .ok (.object [(ascii "delta", .boolean true),
        (ascii "msg", .string (ascii "listVariables"))]) :=
  eq_of_isDelta (by decide +kernel)

theorem text_ascii {s : String} (h : ByteText s) : text (ascii s) = s :=
  text_octets h

instance (s : String) : Decidable (ByteText s) :=
  inferInstanceAs (Decidable (∀ c ∈ s.toList, c.toNat < 256))

/-- The parser of a session. -/
def streamParser (stray : Bytes → ParseOutcome) : JsonParser where
  parse json := outcome stray (octets json)
  parse_delta := by
    rw [outcome, Format.parseStream, Format.parse_stream,
      ← Format.parseString, parseString_delta]
    simp only [toJson, toFields, List.nil_append, List.cons_append]
    rw [text_ascii (by decide), text_ascii (by decide),
      text_ascii (by decide)]

section streamParser

variable {stray : Bytes → ParseOutcome} {s : Bytes}

theorem parse_of_ok {doc : BasicJson} (h : parseString s = .ok doc) :
    (streamParser stray).parse (text s) = .parsed (toJson doc) := by
  change outcome stray (octets (text s)) = _
  rw [octets_text, outcome, Format.parseStream, Format.parse_stream,
    ← Format.parseString, h]

/-- A text that is no document is an invalid argument, unless a number of it
is beyond the range of integers. -/
theorem parse_of_error {e : Format.Failure} (h : parseString s = .error e)
    (hrange : e ≠ .undefined) :
    (streamParser stray).parse (text s) = .invalidArgument := by
  change outcome stray (octets (text s)) = _
  rw [octets_text, outcome, Format.parseStream, Format.parse_stream,
    ← Format.parseString, h]
  rcases Format.reported_of_parseString h with hreported | ⟨hundefined, -⟩
  · cases e with
    | invalid_argument what => rfl
    | _ => exact hreported.elim
  · exact absurd hundefined hrange

end streamParser

end Rc2Compute.Session
