import Rc2Compute.Format.Numbers

/-!
# Printed numbers and strings

The numbers `dump` prints are number literals, an integer with its value and a
double with its value to 15 significant digits, and an escaped string between
quotes is a string literal with the string as its value.
-/

namespace Rc2Compute.Format

/-! ## Decimal digits -/

section decimals

theorem digitsValue_append_singleton (base : ℕ) (s : Bytes) (c : UInt8) :
    digitsValue base (s ++ [c]) = base * digitsValue base s + digitValue c := by
  rw [digitsValue, List.foldl_append]
  rfl

theorem digitsValue_append (base : ℕ) (s t : Bytes) :
    digitsValue base (s ++ t) =
      digitsValue base s * base ^ t.length + digitsValue base t := by
  induction t using List.reverseRecOn with
  | nil => simp [digitsValue]
  | append_singleton t c ih =>
      rw [← List.append_assoc, digitsValue_append_singleton, ih,
        digitsValue_append_singleton, List.length_append,
        List.length_singleton, pow_succ]
      ring

theorem digitValue_le {c : UInt8} (hc : isDigit c = true) :
    digitValue c ≤ 9 :=
  @forall_digit (digitValue · ≤ 9) (by decide) c hc

theorem digitValue_pos {c : UInt8} (hc : isDigit c = true)
    (hne : c ≠ byte '0') : 1 ≤ digitValue c :=
  @forall_digit (fun c => c ≠ byte '0' → 1 ≤ digitValue c) (by decide) c hc
    hne

theorem Digits.value_lt {ds : Bytes} (h : Digits ds) :
    digitsValue 10 ds < 10 ^ ds.length := by
  induction ds using List.reverseRecOn with
  | nil => simp [digitsValue]
  | append_singleton ds c ih =>
      have hds := ih fun d hd => h d (List.mem_append_left _ hd)
      have hc := digitValue_le (h c (by simp))
      rw [digitsValue_append_singleton, List.length_append,
        List.length_singleton, pow_succ]
      omega

/-- The digits of a positive number do not begin with a zero. -/
theorem decimalText_pos {n : ℕ} (hn : 0 < n) :
    ∃ c ds, decimalText n = c :: ds ∧ isDigit c = true ∧ c ≠ byte '0' ∧
      Digits ds ∧ digitsValue 10 (decimalText n) = n := by
  induction n using Nat.strongRecOn with
  | ind n ih =>
      have hdigit : ∀ d < 10, isDigit (byte (Nat.digitChar d)) = true ∧
          digitValue (byte (Nat.digitChar d)) = d ∧
          (0 < d → byte (Nat.digitChar d) ≠ byte '0') := by
        decide
      by_cases hlt : n < 10
      · obtain ⟨hc, hvalue, hne⟩ := hdigit n hlt
        have htext : decimalText n = [byte n.digitChar] := by
          rw [decimalText, decimal, Nat.toDigits_of_lt_base hlt]
          rfl
        refine ⟨_, [], htext, hc, hne hn, fun _ h => absurd h List.not_mem_nil, ?_⟩
        rw [htext]
        simpa [digitsValue] using hvalue
      · obtain ⟨c, ds, htext, hc, hne, hds, hvalue⟩ :=
          ih (n / 10) (by omega) (by omega)
        obtain ⟨hd, hlast, -⟩ := hdigit (n % 10) (by omega)
        have hsplit : decimalText n =
            decimalText (n / 10) ++ [byte (n % 10).digitChar] := by
          rw [decimalText, decimal,
            Nat.toDigits_of_base_le (by decide) (by omega), List.map_append]
          rfl
        refine ⟨c, ds ++ [byte (n % 10).digitChar],
          by rw [hsplit, htext]; rfl, hc, hne, ?_, ?_⟩
        · intro d hmem
          rcases List.mem_append.mp hmem with hmem | hmem
          · exact hds d hmem
          · rw [List.mem_singleton] at hmem
            rw [hmem]
            exact hd
        · rw [hsplit, digitsValue_append_singleton, hvalue, hlast]
          omega

theorem decimalText_whole (n : ℕ) : Whole (decimalText n) := by
  rcases Nat.eq_zero_or_pos n with rfl | hn
  · exact .zero
  · obtain ⟨c, ds, htext, hc, hne, hds, -⟩ := decimalText_pos hn
    rw [htext]
    exact .digits hc hne hds

@[simp] theorem digitsValue_decimalText (n : ℕ) :
    digitsValue 10 (decimalText n) = n := by
  rcases Nat.eq_zero_or_pos n with rfl | hn
  · rfl
  · obtain ⟨c, ds, -, -, -, -, hvalue⟩ := decimalText_pos hn
    exact hvalue

/-- How many digits a number has. -/
theorem decimalText_length {n k : ℕ} (hlo : 10 ^ k ≤ n)
    (hhi : n < 10 ^ (k + 1)) : (decimalText n).length = k + 1 := by
  obtain ⟨c, ds, htext, hc, hne, hds, hvalue⟩ :=
    decimalText_pos (Nat.lt_of_lt_of_le (Nat.pow_pos (by decide)) hlo)
  have hlt := (decimalText_whole n).isDigits.value_lt
  rw [hvalue] at hlt
  have hge : 10 ^ ds.length ≤ n := by
    rw [← hvalue, htext, show c :: ds = [c] ++ ds from rfl,
      digitsValue_append]
    have := digitValue_pos hc hne
    calc 10 ^ ds.length = 1 * 10 ^ ds.length := (one_mul _).symm
      _ ≤ digitValue c * 10 ^ ds.length := by gcongr
      _ ≤ digitsValue 10 [c] * 10 ^ ds.length + digitsValue 10 ds := by
        simp [digitsValue]
  have h₁ := (Nat.pow_lt_pow_iff_right (by decide)).mp (hlo.trans_lt hlt)
  have h₂ := (Nat.pow_lt_pow_iff_right (by decide)).mp (hge.trans_lt hhi)
  rw [htext, List.length_cons] at h₁ ⊢
  omega

end decimals

/-! ## Numbers -/

section numbers

theorem digitsValue_zeros {s : Bytes} (h : ∀ c ∈ s, c = byte '0') :
    digitsValue 10 s = 0 := by
  induction s using List.reverseRecOn with
  | nil => rfl
  | append_singleton s c ih =>
      rw [digitsValue_append_singleton,
        ih fun d hd => h d (List.mem_append_left _ hd), h c (by simp)]
      rfl

/-- Zeros at the end of a fraction do not change its value. -/
theorem fraction_zeros (whole kept zeros : Bytes)
    (h : ∀ c ∈ zeros, c = byte '0') :
    (digitsValue 10 (whole ++ kept) / 10 ^ kept.length : ℚ≥0) =
      digitsValue 10 (whole ++ (kept ++ zeros)) /
        10 ^ (kept ++ zeros).length := by
  rw [← List.append_assoc, digitsValue_append 10 (whole ++ kept) zeros,
    digitsValue_zeros h, List.length_append]
  push_cast
  rw [add_zero, pow_add]
  field_simp

theorem fractionText_fraction {ds : Bytes} (h : Digits ds) :
    ∃ kept, Fraction (fractionText ds) kept ∧ ∀ whole,
      (digitsValue 10 (whole ++ kept) / 10 ^ kept.length : ℚ≥0) =
        digitsValue 10 (whole ++ ds) / 10 ^ ds.length := by
  have hsplit : ds.rdropWhile (· = byte '0') ++
      ds.rtakeWhile (· = byte '0') = ds :=
    List.rdropWhile_append_rtakeWhile
  have hzeros : ∀ c ∈ ds.rtakeWhile (· = byte '0'), c = byte '0' := by
    intro c hc
    simpa using List.mem_rtakeWhile_imp hc
  refine ⟨ds.rdropWhile (· = byte '0'), ?_, fun whole => ?_⟩
  · cases hkept : ds.rdropWhile (· = byte '0') with
    | nil =>
        rw [fractionText, hkept]
        exact .absent
    | cons c kept =>
        rw [fractionText, hkept]
        refine .digits (fun d hd => h d ?_) (List.cons_ne_nil _ _)
        rw [← hkept] at hd
        exact (List.rdropWhile_prefix _ _).subset hd
  · have := fraction_zeros whole (ds.rdropWhile (· = byte '0')) _ hzeros
    rwa [hsplit] at this

theorem exponentText_exponent (x : ℤ) :
    Exponent (byte 'e' :: exponentText x) x := by
  have hdigits : ∀ pad : Bytes, (∀ c ∈ pad, c = byte '0') →
      Digits (pad ++ decimalText x.natAbs) ∧
        pad ++ decimalText x.natAbs ≠ [] ∧
        digitsValue 10 (pad ++ decimalText x.natAbs) = x.natAbs := by
    intro pad hpad
    refine ⟨fun c hc => ?_, ?_, ?_⟩
    · rcases List.mem_append.mp hc with hc | hc
      · rw [hpad c hc]
        rfl
      · exact (decimalText_whole _).isDigits c hc
    · exact List.append_ne_nil_of_right_ne_nil _ (decimalText_whole _).ne_nil
    · rw [digitsValue_append, digitsValue_zeros hpad,
        digitsValue_decimalText, Nat.zero_mul, Nat.zero_add]
  obtain ⟨hds, hne, hvalue⟩ := hdigits
    (if x.natAbs < 10 then [byte '0'] else []) (by split <;> simp)
  rw [exponentText, List.cons_append]
  split
  next hneg =>
    have := Exponent.present (.inl rfl) .minus hds hne
    rw [hvalue, show -((x.natAbs : ℕ) : ℤ) = x by omega] at this
    exact this
  next =>
    have := Exponent.present (.inl rfl) .plus hds hne
    rw [hvalue, show id ((x.natAbs : ℕ) : ℤ) = x by rw [id]; omega] at this
    exact this

theorem NumberLiteral.of_parts {text whole fraction digits exponent : Bytes}
    {x : ℤ} {q : ℚ≥0} (negative : Bool) (hw : Whole whole)
    (hf : Fraction fraction digits) (he : Exponent exponent x)
    (htext : text =
      signText negative ++ (whole ++ (fraction ++ exponent)))
    (hq : q = digitsValue 10 (whole ++ digits) / 10 ^ digits.length * 10 ^ x) :
    NumberLiteral text negative q := by
  rw [htext, hq]
  exact .mk negative hw hf he

/-- An integer is printed with its value. -/
theorem integerText_literal (n : ℤ) :
    NumberLiteral (integerText n) (n < 0) n.natAbs :=
  .of_parts _ (decimalText_whole n.natAbs) .absent .absent
    (by rw [integerText, List.append_nil, List.append_nil]) (by simp)

theorem roundEven_ge {q : ℚ≥0} {n : ℕ} (h : (n : ℚ≥0) ≤ q) :
    n ≤ roundEven q := by
  have hfloor : n ≤ ⌊q⌋₊ := Nat.le_floor h
  rw [roundEven]
  split
  · exact hfloor
  · split <;> omega

/-- The digits are 15. -/
theorem significant_bounds {q : ℚ≥0} (hq : q ≠ 0) :
    10 ^ 14 ≤ (significant q).2 ∧ (significant q).2 < 10 ^ 15 := by
  have hpos : 0 < q := pos_iff_ne_zero.mpr hq
  have hten : (0 : ℚ≥0) < 10 ^ (Int.log 10 q - 14) := zpow_pos (by norm_num) _
  have hlo : ((10 ^ 14 : ℕ) : ℚ≥0) ≤ q / 10 ^ (Int.log 10 q - 14) := by
    rw [le_div_iff₀ hten]
    have := Int.zpow_log_le_self (b := 10) (by norm_num) hpos
    calc ((10 ^ 14 : ℕ) : ℚ≥0) * 10 ^ (Int.log 10 q - 14)
        = 10 ^ (Int.log 10 q) := by
          rw [Nat.cast_pow, ← zpow_natCast, Nat.cast_ofNat,
            ← zpow_add₀ (by norm_num)]
          congr 1
          push_cast
          ring
      _ ≤ q := by exact_mod_cast this
  have hhi : q / 10 ^ (Int.log 10 q - 14) ≤ ((10 ^ 15 : ℕ) : ℚ≥0) := by
    rw [div_le_iff₀ hten]
    have := (Int.lt_zpow_succ_log_self (b := 10) (by norm_num) q).le
    calc q ≤ 10 ^ (Int.log 10 q + 1) := by exact_mod_cast this
      _ = ((10 ^ 15 : ℕ) : ℚ≥0) * 10 ^ (Int.log 10 q - 14) := by
        rw [Nat.cast_pow, ← zpow_natCast, Nat.cast_ofNat,
          ← zpow_add₀ (by norm_num)]
        congr 1
        push_cast
        ring
  have hge := roundEven_ge hlo
  have hle := roundEven_le hhi
  rw [significant]
  split
  next => exact ⟨le_rfl, by norm_num⟩
  next hne => exact ⟨hge, lt_of_le_of_ne hle hne⟩

/-- Scaling digits by a power of ten. -/
theorem scaled_eq (d : ℕ) {k : ℕ} {x y : ℤ} (h : y - k = x - 14) :
    (d * 10 ^ (x - 14) : ℚ≥0) = d / 10 ^ k * 10 ^ y := by
  rw [← h, zpow_sub₀ (by norm_num), zpow_natCast]
  ring

/-- A positive value is printed to 15 significant digits. -/
theorem generalText_literal {q : ℚ≥0} (hq : q ≠ 0) (negative : Bool) :
    NumberLiteral (signText negative ++ generalText q) negative
      (toSignificant q) := by
  obtain ⟨hlo, hhi⟩ := significant_bounds hq
  have hlen := decimalText_length hlo hhi
  have hvalue := digitsValue_decimalText (significant q).2
  have hdigits := (decimalText_whole (significant q).2).isDigits
  obtain ⟨c, ds, htext, hc, hne, hds, -⟩ :=
    decimalText_pos (Nat.lt_of_lt_of_le (by norm_num) hlo)
  rw [generalText, toSignificant]
  generalize (significant q).1 = x
  generalize (significant q).2 = d at *
  rw [htext] at hlen hvalue hdigits ⊢
  have hwhole : ∀ k, Whole ((c :: ds).take (k + 1)) := fun k =>
    .digits hc hne fun e he => hds e (List.mem_of_mem_take he)
  have hdrop : ∀ k, Digits ((c :: ds).drop k) := fun k e he =>
    hdigits e (List.mem_of_mem_drop he)
  split
  next =>
    -- one digit in front of the point, and an exponent
    obtain ⟨kept, hf, hkept⟩ := fractionText_fraction (hdrop 1)
    refine .of_parts negative (hwhole 0) hf (exponentText_exponent x)
      (by simp) ?_
    rw [hkept, List.take_append_drop, hvalue]
    exact scaled_eq d (by rw [List.length_drop, hlen]; norm_num)
  next hrange =>
    split
    next hx =>
      -- the point lies within the digits or behind them
      obtain ⟨kept, hf, hkept⟩ := fractionText_fraction (hdrop (x.toNat + 1))
      refine .of_parts negative (hwhole x.toNat) hf .absent (by simp) ?_
      rw [hkept, List.take_append_drop, hvalue]
      refine scaled_eq d ?_
      rw [List.length_drop, hlen]
      omega
    next hx =>
      -- zeros stand between the point and the digits
      have hzeros : ∀ e ∈ List.replicate (-x - 1).toNat (byte '0'),
          e = byte '0' := fun e he => List.eq_of_mem_replicate he
      have hall : Digits (List.replicate (-x - 1).toNat (byte '0') ++
          c :: ds) := by
        intro e he
        rcases List.mem_append.mp he with he | he
        · rw [hzeros e he]
          rfl
        · exact hdigits e he
      obtain ⟨kept, hf, hkept⟩ := fractionText_fraction hall
      refine .of_parts negative .zero hf .absent (by simp) ?_
      have hsum : digitsValue 10 ([byte '0'] ++
          (List.replicate (-x - 1).toNat (byte '0') ++ c :: ds)) = d := by
        rw [← List.append_assoc, digitsValue_append, digitsValue_zeros,
          hvalue, Nat.zero_mul, Nat.zero_add]
        intro e he
        rcases List.mem_append.mp he with he | he
        · exact List.mem_singleton.mp he
        · exact hzeros e he
      rw [hkept, hsum]
      refine scaled_eq d ?_
      rw [List.length_append, List.length_replicate, hlen]
      omega

/-- What a double is printed as: a whole number with its value, any other to
15 significant digits. -/
def printed (q : ℚ≥0) : ℚ≥0 :=
  if q.den = 1 then q else toSignificant q

theorem floatText_literal (negative : Bool) (q : ℚ≥0) :
    NumberLiteral (floatText (.finite negative q)) negative (printed q) := by
  rw [floatText, printed]
  split
  next hden =>
    have hdot : Fraction (ascii ".0") [byte '0'] :=
      .digits Whole.zero.isDigits (List.cons_ne_nil _ _)
    refine .of_parts negative (decimalText_whole q.num) hdot .absent
      (by rw [List.append_nil]) ?_
    have hnum : (q.num : ℚ≥0) = q := by
      have := NNRat.num_div_den q
      rwa [hden, Nat.cast_one, div_one] at this
    rw [digitsValue_append_singleton, digitsValue_decimalText,
      show digitValue (byte '0') = 0 from rfl]
    simp [hnum]
  next hden =>
    refine generalText_literal ?_ negative
    rintro rfl
    exact hden rfl

end numbers

/-! ## Strings -/

section strings

theorem extra_space_cons (c : UInt8) (s : Bytes) :
    extra_space (c :: s) = extraOf c + extra_space s := by
  rw [extra_space, List.map_cons, List.sum_cons, extra_space]

/-- How much longer an escaped character is. -/
theorem escapeByte_length (c : UInt8) :
    (escapeByte c).length = 1 + extraOf c := by
  rw [escapeByte, extraOf]
  split_ifs <;> simp_all

theorem escapeByte_of_extra {c : UInt8} (h : extraOf c = 0) :
    escapeByte c = [c] := by
  rw [extraOf] at h
  split_ifs at h with hspecial hcontrol
  simp only [not_or] at hspecial
  simp [escapeByte, hspecial, hcontrol]

/-- The shortcut for strings without special characters gives what the loop
would. -/
theorem escape_string_eq (s : Bytes) :
    escape_string s = s.flatMap escapeByte := by
  rw [escape_string]
  split
  next hspace =>
    induction s with
    | nil => rfl
    | cons c s ih =>
        rw [extra_space_cons] at hspace
        rw [List.flatMap_cons, escapeByte_of_extra (by omega),
          ← ih (by omega)]
        rfl
  next => rfl

/-- The loop fills the result, whose size is computed before. -/
theorem escape_string_length (s : Bytes) :
    (escape_string s).length = s.length + extra_space s := by
  rw [escape_string_eq]
  induction s with
  | nil => rfl
  | cons c s ih =>
      rw [List.flatMap_cons, List.length_append, escapeByte_length, ih,
        extra_space_cons, List.length_cons]
      omega

instance (s : Bytes) : Decidable (∀ c ∈ s, isHexDigit c = true) :=
  List.decidableBAll _ s

/-- How a character is escaped: not at all, by a letter that stands for it, or
by its number. -/
theorem escapeByte_cases (c : UInt8) :
    (isPlain c = true ∧ escapeByte c = [c]) ∨
      (∃ e, isEscape e = true ∧ simpleEscape e = [c] ∧
        escapeByte c = [byte '\\', e]) ∨
      (c < 0x20 ∧ escapeByte c = [byte '\\', byte 'u', byte '0', byte '0',
        hexify (c >>> 4), hexify (c &&& 0x0f)]) := by
  by_cases hspecial : c = byte '"' ∨ c = byte '\\' ∨ c = 0x08 ∨ c = 0x0c ∨
      c = 0x0a ∨ c = 0x0d ∨ c = 0x09
  · refine .inr (.inl ⟨(escapeByte c).getLastD 0, ?_⟩)
    rcases hspecial with rfl | rfl | rfl | rfl | rfl | rfl | rfl <;> decide
  simp only [not_or] at hspecial
  by_cases hcontrol : c ≤ 0x1f
  · refine .inr (.inr ⟨Nat.lt_succ_of_le hcontrol, ?_⟩)
    simp [escapeByte, hspecial, hcontrol]
  · have hplain : 0x10 ≤ c :=
      UInt8.le_of_lt (UInt8.lt_of_lt_of_le (by decide)
        (UInt8.le_of_lt (UInt8.not_le.mp hcontrol)))
    refine .inl ⟨?_, by simp [escapeByte, hspecial, hcontrol]⟩
    exact decide_eq_true ⟨hplain, hspecial.1, hspecial.2.1⟩

/-- The digits of a control character. -/
theorem hexify_digits {c : UInt8} (hc : c < 0x20) :
    isHexDigit (hexify (c >>> 4)) = true ∧
      isHexDigit (hexify (c &&& 0x0f)) = true ∧
      strtoul [byte '0', byte '0', hexify (c >>> 4), hexify (c &&& 0x0f)] =
        c.toNat :=
  @forall_between 0 32 (fun c => isHexDigit (hexify (c >>> 4)) = true ∧
    isHexDigit (hexify (c &&& 0x0f)) = true ∧
    strtoul [byte '0', byte '0', hexify (c >>> 4), hexify (c &&& 0x0f)] =
      c.toNat) (by decide) c (Nat.zero_le _) hc

theorem escapeByte_item (c : UInt8) : Item (escapeByte c) := by
  rcases escapeByte_cases c with ⟨hc, heq⟩ | ⟨e, he, -, heq⟩ | ⟨hc, heq⟩
  · rw [heq]
    exact .plain hc
  · rw [heq]
    exact .escape he
  · obtain ⟨h1, h2, -⟩ := hexify_digits hc
    rw [heq]
    exact .unicode rfl rfl h1 h2

theorem escape_string_body (s : Bytes) : Body (escape_string s) := by
  rw [escape_string_eq]
  induction s with
  | nil => exact .nil
  | cons c s ih =>
      rw [List.flatMap_cons]
      exact .cons (escapeByte_item c) ih

/-- An escaped character is read back. -/
theorem unescape_escapeByte (c : UInt8) (rest : Bytes) :
    unescape (escapeByte c ++ rest) = (unescape rest).map (c :: ·) := by
  rcases escapeByte_cases c with ⟨hc, heq⟩ | ⟨e, he, hvalue, heq⟩ | ⟨hc, heq⟩
  · rw [heq]
    refine unescape_plain ?_ rest
    rintro rfl
    cases hc
  · have hne : e ≠ byte 'u' := by
      rintro rfl
      cases he
    rw [heq, List.cons_append, List.singleton_append, unescape_escape hne,
      hvalue]
    rfl
  · obtain ⟨-, -, hvalue⟩ := hexify_digits hc
    have hlt : c.toNat < 0x20 := hc
    have hlow : isHighSurrogate (strtoul [byte '0', byte '0',
        hexify (c >>> 4), hexify (c &&& 0x0f)]) = false := by
      rw [hvalue, isHighSurrogate, decide_eq_false_iff_not]
      omega
    rw [heq]
    simp only [List.cons_append, List.nil_append]
    rw [unescape_unicode hlow, hvalue, to_unicode, if_neg, utf8,
      if_pos (by omega), bind_ok, UInt8.ofNat_toNat]
    · rfl
    · rw [hvalue] at hlow
      rw [hlow]
      decide

/-- Escaping a string and reading it back gives the string. -/
theorem unescape_escape_string (s : Bytes) :
    unescape (escape_string s) = .ok s := by
  rw [escape_string_eq]
  induction s with
  | nil => rfl
  | cons c s ih =>
      rw [List.flatMap_cons, unescape_escapeByte, ih]
      rfl

/-! ### Scanning -/

/-- The labels within a string, between two characters. -/
def Inside (l : Label) : Prop := l = .p27 ∨ l = .p31

theorem move_plain {l : Label} (hl : Inside l) {c : UInt8}
    (hc : isPlain c = true) : move l c = .shift .p31 := by
  have hcontrol : ¬c ≤ 0x0f := UInt8.not_le.mpr
    (UInt8.lt_of_lt_of_le (by decide) (of_decide_eq_true hc).1)
  rcases hl with rfl | rfl
  · rw [move, if_neg hcontrol, moveString, if_pos hc]
  · rw [move, moveString, if_pos hc]

theorem move_escape {e : UInt8} (he : isEscape e = true) :
    move .p34 e = .shift .p31 := by
  rw [move, if_pos he]

theorem move_hex {h : UInt8} (hh : isHexDigit h = true) :
    move .p37 h = .shift .p38 ∧ move .p38 h = .shift .p39 ∧
      move .p39 h = .shift .p40 ∧ move .p40 h = .shift .p31 := by
  simp [move, moveHex, hh]

theorem Item.route {item : Bytes} (h : Item item) {l : Label}
    (hl : Inside l) : scanner.route l item = some .p31 := by
  have hback : move l (byte '\\') = .shift .p34 := by
    rcases hl with rfl | rfl <;> rfl
  cases h with
  | plain hc => exact route_move (move_plain hl hc) _
  | escape he =>
      rw [route_move hback, route_move (move_escape he)]
      rfl
  | unicode h1 h2 h3 h4 =>
      rw [route_move hback, @route_move _ .p37 _ rfl,
        route_move (move_hex h1).1, route_move (move_hex h2).2.1,
        route_move (move_hex h3).2.2.1, route_move (move_hex h4).2.2.2]
      rfl

theorem Body.route {s : Bytes} (h : Body s) {l : Label} (hl : Inside l) :
    ∃ l', Inside l' ∧ scanner.route l s = some l' := by
  induction h generalizing l with
  | nil => exact ⟨l, hl, rfl⟩
  | cons hitem _ ih =>
      obtain ⟨l', hl', hroute⟩ := ih (.inr rfl)
      refine ⟨l', hl', ?_⟩
      exact (Scanner.route_append (S := scanner) (hitem.route hl) _).trans
        hroute

/-- A string literal is one token. -/
theorem Body.scan {s : Bytes} (h : Body s) (rest : Bytes) :
    stringLexer.scan (byte '"' :: (s ++ byte '"' :: rest)) =
      some (⟨.value_string, byte '"' :: (s ++ [byte '"'])⟩, rest) := by
  obtain ⟨l, hl, hroute⟩ := h.route (l := .p27) (.inl rfl)
  have hquote : move l (byte '"') = .accept .value_string := by
    rcases hl with rfl | rfl <;> rfl
  have hstart : scanner.route .p0 (byte '"' :: s) = some l :=
    (@route_move _ .p27 _ rfl s).trans hroute
  exact Scanner.scan_accept (S := scanner) hstart hquote rest

end strings

end Rc2Compute.Format
