import Rc2Compute.Format.RoundTrip

/-!
# What the parser accepts

A document the parser gives has the keys of its objects in order and only
numbers that a double held, so it can be printed and parsed again.  Without
doubles that are not whole, it comes back as it was.
-/

namespace Rc2Compute.Format

/-! ## Fields stay in order -/

section fields

theorem mem_setField {key : Bytes} {value : BasicJson}
    {fields : List (Bytes × BasicJson)} {k : Bytes}
    (h : k ∈ (setField key value fields).map Prod.fst) :
    k = key ∨ k ∈ fields.map Prod.fst := by
  induction fields with
  | nil =>
      rw [setField, List.map_singleton, List.mem_singleton] at h
      exact .inl h
  | cons field fields ih =>
      obtain ⟨k', v⟩ := field
      rw [setField] at h
      split at h
      · rw [List.map_cons, List.mem_cons] at h
        exact h
      · split at h
        · rw [List.map_cons, List.mem_cons] at h
          exact h.imp_right fun h => List.mem_cons_of_mem _ h
        · rw [List.map_cons, List.mem_cons] at h
          rcases h with rfl | h
          · exact .inr List.mem_cons_self
          · exact (ih h).imp_right fun h => List.mem_cons_of_mem _ h

theorem setField_sorted (key : Bytes) (value : BasicJson)
    {fields : List (Bytes × BasicJson)}
    (h : (fields.map Prod.fst).Pairwise (· < ·)) :
    ((setField key value fields).map Prod.fst).Pairwise (· < ·) := by
  induction fields with
  | nil => exact List.pairwise_singleton _ _
  | cons field fields ih =>
      obtain ⟨k, v⟩ := field
      rw [setField]
      split
      next hlt =>
        rw [List.map_cons, List.pairwise_cons]
        refine ⟨fun k' hk' => ?_, h⟩
        rw [List.map_cons, List.mem_cons] at hk'
        rcases hk' with rfl | hk'
        · exact hlt
        · exact List.lt_trans hlt ((List.pairwise_cons.mp h).1 k' hk')
      next hge =>
        split
        next heq =>
          rw [heq]
          exact h
        next hne =>
          have hlt : k < key := by
            by_contra hnot
            exact hne (Std.Trichotomous.trichotomous
              (r := fun a b : Bytes => a < b) key k hge hnot)
          rw [List.map_cons, List.pairwise_cons] at h ⊢
          refine ⟨fun k' hk' => ?_, ih h.2⟩
          rcases mem_setField hk' with rfl | hk'
          · exact hlt
          · exact h.1 k' hk'

theorem assign_sorted (more : List (Bytes × BasicJson))
    {fields : List (Bytes × BasicJson)}
    (h : (fields.map Prod.fst).Pairwise (· < ·)) :
    ((assign fields more).map Prod.fst).Pairwise (· < ·) := by
  induction more generalizing fields with
  | nil => exact h
  | cons field more ih => exact ih (setField_sorted field.1 field.2 h)

variable {P : BasicJson → Prop}

theorem everywhereOf_setField {key : Bytes} {value : BasicJson}
    {fields : List (Bytes × BasicJson)} (hvalue : Everywhere P value)
    (h : EverywhereOf P fields) :
    EverywhereOf P (setField key value fields) := by
  induction fields with
  | nil => exact ⟨hvalue, h⟩
  | cons field fields ih =>
      obtain ⟨k, v⟩ := field
      rw [EverywhereOf] at h
      rw [setField]
      split
      · exact ⟨hvalue, h⟩
      · split
        · exact ⟨hvalue, h.2⟩
        · exact ⟨h.1, ih h.2⟩

theorem everywhereOf_assign {fields more : List (Bytes × BasicJson)}
    (h : EverywhereOf P fields) (hmore : EverywhereOf P more) :
    EverywhereOf P (assign fields more) := by
  induction more generalizing fields with
  | nil => exact h
  | cons field more ih =>
      rw [EverywhereOf] at hmore
      exact ih (everywhereOf_setField hmore.1 h) hmore.2

/-- What the parser makes has a property, as far as one node goes. -/
structure Made (P : BasicJson → Prop) : Prop where
  null : P .null
  boolean : ∀ b, P (.boolean b)
  string : ∀ s, P (.string s)
  array : ∀ elems, P (.array elems)
  object : ∀ fields, P (.object (assign [] fields))
  number : ∀ {x : Lexeme} {v : BasicJson},
    numberValue x.number = .ok v → Everywhere P v

/-- The property, for what a phrase stands for. -/
def Phrase.Everywhere (P : BasicJson → Prop) : Phrase → Prop
  | .value v => Format.Everywhere P v
  | .elements vs => EverywhereIn P vs
  | .members fields => EverywhereOf P fields

/-- A property of what is made at each node holds everywhere. -/
theorem Derives.everywhere (h : Made P) {xs : List Lexeme} {phrase : Phrase}
    (hd : Derives xs phrase) : phrase.Everywhere P := by
  induction hd with
  | null => exact h.null
  | yes | no => exact h.boolean _
  | string => exact h.string _
  | number _ _ hv => exact h.number hv
  | emptyArray => exact ⟨h.array [], trivial⟩
  | array _ _ _ ih => exact ⟨h.array _, ih⟩
  | emptyObject => exact ⟨h.object [], trivial⟩
  | object _ _ _ ih => exact ⟨h.object _, everywhereOf_assign trivial ih⟩
  | element _ ih => exact ⟨ih, trivial⟩
  | elements _ _ _ ih ihrest => exact ⟨ih, ihrest⟩
  | member _ _ _ _ ih => exact ⟨ih, trivial⟩
  | members _ _ _ _ _ _ ih ihrest => exact ⟨ih, ihrest⟩

end fields

/-! ## The numbers of an accepted document -/

section numbers

/-- A number as parsing gives it: an integer that comes back as it was, or a
double that is not whole. -/
def SettledNumber : BasicJson → Prop
  | .number_integer n => ExactInteger n
  | .number_float (.finite negative q) =>
      Double.Representable q ∧ ⌊q⌋₊ < 2 ^ 63 ∧
        (q.den = 1 → negative = true ∧ q = 0)
  | .number_float _ => False
  | _ => True

/-- The value of a number token is a double. -/
theorem representable_of_get_number {token : LexToken} {following : Bytes}
    {negative : Bool} {q : ℚ≥0}
    (h : get_number token following = .finite negative q) :
    Double.Representable q := by
  have hzero : Double.Representable 0 :=
    ⟨by positivity, 0, 0, by norm_num, by norm_num, by simp⟩
  rw [get_number] at h
  split at h
  · rw [strtod] at h
    split at h
    · exact Double.representable_of_round h
    · cases h
      exact hzero
  · cases h

/-- What a number that is not whole is below. -/
theorem lt_of_den_ne_one {q : ℚ≥0} (h : Double.Representable q)
    (hden : q.den ≠ 1) : q < 2 ^ 53 := by
  obtain ⟨-, m, e, hm, -, rfl⟩ := h
  have he : e < 0 := by
    by_contra hge
    obtain ⟨n, rfl⟩ := Int.eq_ofNat_of_zero_le (not_lt.mp hge)
    refine hden ?_
    have heq : ((m : ℚ≥0) * 2 ^ (n : ℤ)) = ((m * 2 ^ n : ℕ) : ℚ≥0) := by
      rw [zpow_natCast]
      push_cast
      rfl
    rw [heq]
    exact NNRat.den_natCast _
  have hle : (2 : ℚ≥0) ^ e ≤ 1 := zpow_le_one_of_nonpos₀ (by norm_num) he.le
  calc (m : ℚ≥0) * 2 ^ e ≤ m * 1 := by gcongr
    _ = m := mul_one _
    _ < 2 ^ 53 := by exact_mod_cast hm

theorem settled_of_numberValue {x : Lexeme} {v : BasicJson}
    (h : numberValue x.number = .ok v) : Everywhere SettledNumber v := by
  cases hx : x.number with
  | infinite | nan =>
      rw [hx] at h
      cases h
  | finite negative q =>
      have hrep := representable_of_get_number hx
      rw [hx] at h
      simp only [numberValue] at h
      generalize hint : (if negative = true then -(⌊q⌋₊ : ℤ) else ⌊q⌋₊) = n
        at h
      have habs : n.natAbs = ⌊q⌋₊ := by
        rw [← hint]
        split <;> omega
      split at h
      next => cases h
      next hrange =>
        rw [not_or, not_lt, not_le] at hrange
        split at h
        next hwhole =>
          cases h
          refine ⟨hrange.1, hrange.2, ?_⟩
          rw [habs, hwhole.1]
          exact hrep
        next hwhole =>
          cases h
          have hdone : q.den = 1 → negative = true ∧ q = 0 := by
            intro hden
            by_contra hne
            refine hwhole ⟨?_, hne⟩
            have hnum : (q.num : ℚ≥0) = q := by
              have := NNRat.num_div_den q
              rwa [hden, Nat.cast_one, div_one] at this
            rw [← hnum, Nat.floor_natCast]
          refine ⟨hrep, ?_, hdone⟩
          by_cases hden : q.den = 1
          · rw [(hdone hden).2, Nat.floor_zero]
            norm_num
          · have hlt : ⌊q⌋₊ < 2 ^ 53 := by
              rw [Nat.floor_lt zero_le]
              exact_mod_cast lt_of_den_ne_one hrep hden
            omega

theorem made_settled : Made SettledNumber where
  null := trivial
  boolean _ := trivial
  string _ := trivial
  array _ := trivial
  object _ := trivial
  number h := settled_of_numberValue h

theorem sortedKeys_of_numberValue {x : Double} {v : BasicJson}
    (h : numberValue x = .ok v) : Everywhere SortedKeys v := by
  cases x with
  | infinite | nan => cases h
  | finite negative q =>
      simp only [numberValue] at h
      generalize (if negative = true then -(⌊q⌋₊ : ℤ) else ⌊q⌋₊) = n at h
      split at h
      · cases h
      · split at h
        · cases h
          trivial
        · cases h
          trivial

theorem made_sortedKeys : Made SortedKeys where
  null := trivial
  boolean _ := trivial
  string _ := trivial
  array _ := trivial
  object fields := assign_sorted fields List.Pairwise.nil
  number h := sortedKeys_of_numberValue h

end numbers

/-! ## Printing and parsing again -/

section again

theorem two_mul_ge {y : ℚ≥0} (h : 1 ≤ y) : (roundEven y : ℚ≥0) ≤ 2 * y := by
  have hfloor : (⌊y⌋₊ : ℚ≥0) ≤ y := Nat.floor_le zero_le
  have hle : (roundEven y : ℚ≥0) ≤ ⌊y⌋₊ + 1 := by
    have : roundEven y ≤ ⌊y⌋₊ + 1 := by
      rw [roundEven]
      split
      · omega
      · split <;> omega
    exact_mod_cast this
  calc (roundEven y : ℚ≥0) ≤ ⌊y⌋₊ + 1 := hle
    _ ≤ y + y := add_le_add hfloor h
    _ = 2 * y := (two_mul y).symm

/-- Rounding to 15 digits does not double a value. -/
theorem toSignificant_le {q : ℚ≥0} (hq : q ≠ 0) : toSignificant q ≤ 2 * q := by
  have hpos : 0 < q := pos_iff_ne_zero.mpr hq
  have hten : (0 : ℚ≥0) < 10 ^ (Int.log 10 q - 14) := zpow_pos (by norm_num) _
  have hone : 1 ≤ q / 10 ^ (Int.log 10 q - 14) := by
    rw [le_div_iff₀ hten, one_mul]
    have hlog := Int.zpow_log_le_self (b := 10) (by norm_num) hpos
    calc (10 : ℚ≥0) ^ (Int.log 10 q - 14) ≤ 10 ^ (Int.log 10 q) := by
          gcongr
          · norm_num
          · omega
      _ ≤ q := by exact_mod_cast hlog
  have hround := two_mul_ge hone
  have heq : toSignificant q =
      roundEven (q / 10 ^ (Int.log 10 q - 14)) * 10 ^ (Int.log 10 q - 14) := by
    rw [toSignificant, significant]
    split
    next h15 =>
      rw [h15, show Int.log 10 q + 1 - 14 = Int.log 10 q - 14 + 1 by ring,
        zpow_add_one₀ (by norm_num)]
      push_cast
      ring
    next => rfl
  rw [heq]
  calc (roundEven (q / 10 ^ (Int.log 10 q - 14)) : ℚ≥0) *
        10 ^ (Int.log 10 q - 14)
      ≤ 2 * (q / 10 ^ (Int.log 10 q - 14)) * 10 ^ (Int.log 10 q - 14) := by
        gcongr
    _ = 2 * q := by field_simp

/-- A number of an accepted document comes back as some number. -/
theorem numberValue_printed {negative : Bool} {q : ℚ≥0}
    (hrep : Double.Representable q)
    (hwhole : q.den = 1 → negative = true ∧ q = 0) :
    ∃ w, numberValue (Double.round negative (printed q)) = .ok w := by
  have hle : printed q ≤ 2 ^ 54 := by
    rw [printed]
    split
    next hden =>
      rw [(hwhole hden).2]
      exact zero_le
    next hden =>
      have hne : q ≠ 0 := by
        rintro rfl
        exact hden rfl
      calc toSignificant q ≤ 2 * q := toSignificant_le hne
        _ ≤ 2 * 2 ^ 53 := by
          gcongr
          exact (lt_of_den_ne_one hrep hden).le
        _ = 2 ^ 54 := by norm_num
  obtain ⟨r, hround, hr⟩ :=
    @Double.round_le_two_pow negative _ _ hle (by norm_num)
  have hfloor : ⌊r⌋₊ ≤ 2 ^ 54 := Nat.floor_le_of_le (by exact_mod_cast hr)
  rw [hround]
  simp only [numberValue]
  rw [if_neg]
  · split
    · exact ⟨_, rfl⟩
    · exact ⟨_, rfl⟩
  · split <;> omega

mutual

theorem reread_of_settled : ∀ {v : BasicJson}, Everywhere SettledNumber v →
    ∃ w, reread v = .ok w
  | .null, _ | .boolean _, _ | .string _, _ => by
      rw [reread]
      exact ⟨_, rfl⟩
  | .number_integer _, h => by
      rw [Everywhere] at h
      exact ⟨_, ExactInteger.reread_eq h⟩
  | .number_float (.finite _ _), h => by
      rw [Everywhere] at h
      rw [reread]
      exact numberValue_printed h.1 h.2.2
  | .number_float (.infinite _), h | .number_float .nan, h => by
      rw [Everywhere] at h
      exact h.elim
  | .array _, h => by
      rw [Everywhere] at h
      obtain ⟨ws, hws⟩ := rereadElements_of_settled h.2
      rw [reread, hws]
      exact ⟨_, rfl⟩
  | .object _, h => by
      rw [Everywhere] at h
      obtain ⟨ws, hws⟩ := rereadFields_of_settled h.2
      rw [reread, hws]
      exact ⟨_, rfl⟩

theorem rereadElements_of_settled : ∀ {elems : List BasicJson},
    EverywhereIn SettledNumber elems → ∃ ws, rereadElements elems = .ok ws
  | [], _ => by
      rw [rereadElements]
      exact ⟨_, rfl⟩
  | _ :: _, h => by
      rw [EverywhereIn] at h
      obtain ⟨w, hw⟩ := reread_of_settled h.1
      obtain ⟨ws, hws⟩ := rereadElements_of_settled h.2
      rw [rereadElements, hw, bind_ok, hws]
      exact ⟨_, rfl⟩

theorem rereadFields_of_settled : ∀ {fields : List (Bytes × BasicJson)},
    EverywhereOf SettledNumber fields → ∃ ws, rereadFields fields = .ok ws
  | [], _ => by
      rw [rereadFields]
      exact ⟨_, rfl⟩
  | (_, _) :: _, h => by
      rw [EverywhereOf] at h
      obtain ⟨w, hw⟩ := reread_of_settled h.1
      obtain ⟨ws, hws⟩ := rereadFields_of_settled h.2
      rw [rereadFields, hw, bind_ok, hws]
      exact ⟨_, rfl⟩

end

/-- The document has no doubles. -/
def NotFloat : BasicJson → Prop
  | .number_float _ => False
  | _ => True

/-- An accepted document is as the library holds it, and its numbers are as
parsing gives them. -/
theorem parseString_accepted {text : Bytes} {v : BasicJson}
    (h : parseString text = .ok v) :
    Canonical v ∧ Everywhere SettledNumber v := by
  obtain ⟨xs, -, hderives⟩ := (advances.parse_eq_ok (Nat.le_refl _) v).mp h
  exact ⟨hderives.everywhere made_sortedKeys,
    hderives.everywhere made_settled⟩

theorem exact_of_settled {v : BasicJson} (h : Everywhere SettledNumber v)
    (hv : Everywhere NotFloat v) : Exact v := by
  refine h.imp₂ ?_ hv
  intro v hnumber hfloat
  cases v with
  | number_integer n => exact hnumber
  | number_float x => exact hfloat.elim
  | _ => trivial

/-- What has been accepted is printed as a text that is accepted again, with
the numbers as they are read back.  Without doubles it is the same
document. -/
theorem parseString_again {text : Bytes} {v : BasicJson}
    (h : parseString text = .ok v) :
    ∃ w, reread v = .ok w ∧ parseString (dump v) = .ok w ∧
      (Everywhere NotFloat v → w = v) := by
  obtain ⟨hcanonical, hsettled⟩ := parseString_accepted h
  obtain ⟨w, hw⟩ := reread_of_settled hsettled
  have hagain := parseString_of_derives (tokenizes_dump hcanonical hw)
  refine ⟨w, hw, hagain, fun hv => ?_⟩
  rw [reread_of_exact (exact_of_settled hsettled hv)] at hw
  exact (Except.ok.inj hw).symm

/-- Keys out of order and one of them twice. -/
theorem parseString_again_fields :
    ∃ v w, reread v = .ok w ∧ parseString (dump v) = .ok w ∧
      (Everywhere NotFloat v → w = v) := by
  have hok : (parseString (ascii
      " \x7b\"b\":[],\"a\":null,\"b\": true\x7d")).isOk = true := by
    decide +kernel
  cases hparse : parseString (ascii
      " \x7b\"b\":[],\"a\":null,\"b\": true\x7d") with
  | ok v => exact ⟨v, parseString_again hparse⟩
  | error e =>
      rw [hparse] at hok
      cases hok

end again

end Rc2Compute.Format
