import Rc2Compute.Format.Scanning

/-!
# Number tokens

What `strtod` reads of a text does not depend on what stands behind the
number, and a number literal of the format is one token that `strtod` reads to
its end, as the double nearest to the decimal value.
-/

namespace Rc2Compute.Format

/-! ## What follows a number -/

section tails

theorem takeWhile_append_of_head {α : Type} {p : α → Bool} {tail : List α}
    (h : ∀ c, tail.head? = some c → p c = false) (l : List α) :
    (l ++ tail).takeWhile p = l.takeWhile p := by
  induction l with
  | nil =>
      cases tail with
      | nil => rfl
      | cons c tail =>
          rw [List.nil_append, List.takeWhile_cons, h c rfl]
          rfl
  | cons a l ih =>
      rw [List.cons_append, List.takeWhile_cons, List.takeWhile_cons, ih]

theorem dropWhile_append_of_head {α : Type} {p : α → Bool} {tail : List α}
    (h : ∀ c, tail.head? = some c → p c = false) (l : List α) :
    (l ++ tail).dropWhile p = l.dropWhile p ++ tail := by
  induction l with
  | nil =>
      cases tail with
      | nil => rfl
      | cons c tail =>
          rw [List.nil_append, List.dropWhile_cons, h c rfl]
          rfl
  | cons a l ih =>
      rw [List.cons_append, List.dropWhile_cons, List.dropWhile_cons, ih]
      split <;> rfl

/-- A character that a numeral may go on with. -/
def goesOn (c : UInt8) : Bool :=
  isHexDigit c ∨ c = byte '.' ∨ c = byte 'x' ∨ c = byte 'X' ∨
    c = byte 'p' ∨ c = byte 'P' ∨ c = byte '+' ∨ c = byte '-'

/-- A text no numeral goes on with. -/
def Ends (tail : Bytes) : Prop :=
  ∀ c, tail.head? = some c → goesOn c = false

variable {tail : Bytes}

theorem Ends.not (h : Ends tail) {p : UInt8 → Bool}
    (hp : ∀ c, p c = true → goesOn c = true) (c : UInt8)
    (hc : tail.head? = some c) : p c = false := by
  have := h c hc
  rw [Bool.eq_false_iff]
  intro htrue
  rw [hp c htrue] at this
  cases this

theorem Ends.head_ne (h : Ends tail) {c : UInt8} (hc : goesOn c = true) :
    tail.head? ≠ some c := by
  intro heq
  have := h c heq
  rw [hc] at this
  cases this

theorem isDigit_goesOn (c : UInt8) (h : isDigit c = true) :
    goesOn c = true := by
  simp [goesOn, isHexDigit, h]

theorem isHexDigit_goesOn (c : UInt8) (h : isHexDigit c = true) :
    goesOn c = true := by
  simp [goesOn, h]

theorem Ends.head?_append (h : Ends tail) {c : UInt8} (hc : goesOn c = true)
    (text : Bytes) : (text ++ tail).head? = some c ↔ text.head? = some c := by
  cases text with
  | nil => simpa using h.head_ne hc
  | cons a text => rfl

theorem exponentPart_append (h : Ends tail) (text : Bytes) :
    exponentPart (text ++ tail) =
      (exponentPart text).map fun r => (r.1, r.2 ++ tail) := by
  have hdigit := h.not isDigit_goesOn
  have htail : text.head? = some (byte '-') ∨ text.head? = some (byte '+') →
      (text ++ tail).tail = text.tail ++ tail := by
    intro hsign
    cases text with
    | nil => rcases hsign with hsign | hsign <;> cases hsign
    | cons a text => rfl
  simp only [exponentPart, h.head?_append (show goesOn (byte '-') = true from
    rfl), h.head?_append (show goesOn (byte '+') = true from rfl)]
  split
  next hsign =>
    rw [htail hsign, takeWhile_append_of_head hdigit,
      dropWhile_append_of_head hdigit]
    split <;> rfl
  next =>
    rw [takeWhile_append_of_head hdigit, dropWhile_append_of_head hdigit]
    split <;> rfl

theorem mantissa_append (h : Ends tail) (base : ℕ) {inDigits : UInt8 → Bool}
    (hdigits : ∀ c, inDigits c = true → goesOn c = true) (text : Bytes) :
    mantissa base inDigits (text ++ tail) =
      (mantissa base inDigits text).map fun r => (r.1, r.2 ++ tail) := by
  have hnot := h.not hdigits
  simp only [mantissa, takeWhile_append_of_head hnot,
    dropWhile_append_of_head hnot]
  cases text.dropWhile inDigits with
  | nil =>
      rw [List.nil_append]
      cases htail : tail with
      | nil =>
          dsimp only
          split <;> rfl
      | cons c rest =>
          have hc : c ≠ byte '.' := by
            rintro rfl
            exact h.head_ne (c := byte '.') rfl (by rw [htail]; rfl)
          dsimp only
          rw [if_neg hc]
          split <;> rfl
  | cons c rest =>
      rw [List.cons_append]
      dsimp only
      rw [takeWhile_append_of_head hnot, dropWhile_append_of_head hnot]
      split
      · split <;> rfl
      · split <;> rfl

theorem scale_append (h : Ends tail) (radix : ℕ) {e : Char}
    (he : goesOn (byte e) = true) (hE : goesOn (byte e.toUpper) = true)
    (value : ℚ≥0 × Bytes) :
    scale radix e (value.1, value.2 ++ tail) =
      ((scale radix e value).1, (scale radix e value).2 ++ tail) := by
  obtain ⟨m, behind⟩ := value
  cases behind with
  | nil =>
      cases htail : tail with
      | nil => rfl
      | cons c rest =>
          have hc : ¬(c = byte e ∨ c = byte e.toUpper) := by
            rintro (rfl | rfl)
            · exact h.head_ne he (by rw [htail]; rfl)
            · exact h.head_ne hE (by rw [htail]; rfl)
          simp only [scale, List.nil_append]
          rw [if_neg hc]
  | cons c rest =>
      simp only [scale, List.cons_append, exponentPart_append h]
      split
      · cases exponentPart rest <;> rfl
      · rfl

theorem numeral_append (h : Ends tail) (base radix : ℕ)
    {inDigits : UInt8 → Bool} {e : Char}
    (hdigits : ∀ c, inDigits c = true → goesOn c = true)
    (he : goesOn (byte e) = true) (hE : goesOn (byte e.toUpper) = true)
    (text : Bytes) :
    numeral base inDigits radix e (text ++ tail) =
      (numeral base inDigits radix e text).map
        fun r => (r.1, r.2 ++ tail) := by
  rw [numeral, numeral, mantissa_append h base hdigits]
  cases mantissa base inDigits text with
  | none => rfl
  | some value => exact congrArg some (scale_append h radix he hE value)

theorem hexadecimal_append (h : Ends tail) (text : Bytes) :
    hexadecimal (text ++ tail) =
      (hexadecimal text).map fun r => (r.1, r.2 ++ tail) := by
  have hx : ∀ c rest, tail = c :: rest → ¬(c = byte 'x' ∨ c = byte 'X') := by
    rintro c rest rfl (rfl | rfl)
    · exact h.head_ne (c := byte 'x') rfl rfl
    · exact h.head_ne (c := byte 'X') rfl rfl
  match text with
  | [] =>
      match htail : tail with
      | [] => rfl
      | [c] => rfl
      | c :: d :: rest =>
          have hc : c ≠ byte '0' := by
            rintro rfl
            exact h.head_ne (c := byte '0') rfl rfl
          rw [List.nil_append, hexadecimal, if_neg fun hcd => hc hcd.1]
          rfl
  | [zero] =>
      cases htail : tail with
      | nil => rfl
      | cons c rest =>
          rw [List.singleton_append, hexadecimal,
            if_neg fun hcd => hx c rest htail hcd.2]
          rfl
  | zero :: x :: rest =>
      rw [List.cons_append, List.cons_append, hexadecimal, hexadecimal,
        numeral_append h 16 2 isHexDigit_goesOn rfl rfl]
      split <;> rfl

/-- `strtod` reads the same number whatever follows it. -/
theorem strtod_append (h : Ends tail) (text : Bytes) :
    strtod (text ++ tail) = ((strtod text).1, (strtod text).2 ++ tail) := by
  have hsign : (if (decide (text.head? = some (byte '-'))) = true then
        (text ++ tail).tail else text ++ tail) =
      (if (decide (text.head? = some (byte '-'))) = true then text.tail
        else text) ++ tail := by
    split
    next hneg =>
      cases text with
      | nil => cases hneg
      | cons a text => rfl
    next => rfl
  simp only [strtod, h.head?_append (show goesOn (byte '-') = true from rfl),
    hsign, hexadecimal_append h,
    numeral_append h 10 10 isDigit_goesOn (show goesOn (byte 'e') = true from
      rfl) (show goesOn (byte 'e'.toUpper) = true from rfl)]
  generalize (if (decide (text.head? = some (byte '-'))) = true then text.tail
    else text) = digits
  cases hexadecimal digits with
  | some value => rfl
  | none => cases numeral 10 isDigit 10 'e' digits <;> rfl

/-- Nor does the value of a number token depend on it. -/
theorem get_number_append (h : Ends tail) (token : LexToken)
    (following : Bytes) :
    get_number token (following ++ tail) = get_number token following := by
  rw [get_number, get_number, ← List.append_assoc, strtod_append h]
  simp only [List.length_append, Nat.add_right_cancel_iff]

theorem get_number_of_ends (h : Ends tail) (token : LexToken) :
    get_number token tail = get_number token [] :=
  get_number_append h token []

end tails

/-! ## Number literals -/

section literals

def Digits (s : Bytes) : Prop := ∀ c ∈ s, isDigit c = true

/-- A whole number without zeros in front. -/
inductive Whole : Bytes → Prop where
  | zero : Whole [byte '0']
  | digits {c : UInt8} {ds : Bytes} (hc : isDigit c = true)
      (hne : c ≠ byte '0') (hds : Digits ds) : Whole (c :: ds)

/-- A fraction, or nothing, and its digits. -/
inductive Fraction : Bytes → Bytes → Prop where
  | absent : Fraction [] []
  | digits {ds : Bytes} (hds : Digits ds) (hne : ds ≠ []) :
      Fraction (byte '.' :: ds) ds

/-- The sign of an exponent, and how it applies. -/
inductive ExponentSign : Bytes → (ℤ → ℤ) → Prop where
  | absent : ExponentSign [] id
  | plus : ExponentSign [byte '+'] id
  | minus : ExponentSign [byte '-'] (- ·)

/-- An exponent, or nothing, and its value. -/
inductive Exponent : Bytes → ℤ → Prop where
  | absent : Exponent [] 0
  | present {e : UInt8} {sign ds : Bytes} {f : ℤ → ℤ}
      (he : e = byte 'e' ∨ e = byte 'E') (hsign : ExponentSign sign f)
      (hds : Digits ds) (hne : ds ≠ []) :
      Exponent (e :: (sign ++ ds)) (f (digitsValue 10 ds))

/-- A number of the format, with its sign and the decimal value of its
magnitude. -/
inductive NumberLiteral : Bytes → Bool → ℚ≥0 → Prop where
  | mk {whole fraction digits exponent : Bytes} {x : ℤ} (negative : Bool)
      (hw : Whole whole) (hf : Fraction fraction digits)
      (he : Exponent exponent x) :
      NumberLiteral (signText negative ++ (whole ++ (fraction ++ exponent)))
        negative (digitsValue 10 (whole ++ digits) / 10 ^ digits.length *
          10 ^ x)

/-! ### Scanning -/

/-- The labels behind digits, where a number may end. -/
def EndsNumber (l : Label) : Prop :=
  l = .p24 ∨ l = .p50 ∨ l = .p26 ∨ l = .p41 ∨ l = .p48 ∨ l = .p46

/-- The labels behind the whole part. -/
def EndsWhole (l : Label) : Prop :=
  l = .p24 ∨ l = .p50 ∨ l = .p26 ∨ l = .p41

theorem not_goesOn {c : UInt8} (hc : goesOn c = false) :
    isDigit c = false ∧ c ≠ byte '.' ∧ ¬(c = byte 'E' ∨ c = byte 'e') := by
  have hne : ∀ d, goesOn d = true → c ≠ d := by
    rintro d hd rfl
    exact Bool.noConfusion (hc.symm.trans hd)
  refine ⟨Bool.eq_false_iff.mpr fun hdigit => ?_, hne _ rfl, ?_⟩
  · exact of_decide_eq_false hc (.inl (decide_eq_true (.inl hdigit)))
  · exact not_or.mpr ⟨hne _ rfl, hne _ rfl⟩

theorem move_stop {l : Label} (hl : EndsNumber l) {c : UInt8}
    (hc : goesOn c = false) : move l c = .stop .value_number := by
  obtain ⟨hdigit, hpoint, hexp⟩ := not_goesOn hc
  rcases hl with rfl | rfl | rfl | rfl | rfl | rfl <;>
    simp [move, moveZero, moveDigits, hdigit, hpoint, hexp]

/-- The moves on a digit that is not the first one. -/
theorem move_digit {c : UInt8} (hc : isDigit c = true) :
    move .p26 c = .shift .p41 ∧ move .p41 c = .shift .p41 ∧
      move .p43 c = .shift .p48 ∧ move .p48 c = .shift .p48 ∧
      move .p44 c = .shift .p46 ∧ move .p45 c = .shift .p46 ∧
      move .p46 c = .shift .p46 :=
  @forall_digit (fun c => move .p26 c = .shift .p41 ∧
    move .p41 c = .shift .p41 ∧ move .p43 c = .shift .p48 ∧
    move .p48 c = .shift .p48 ∧ move .p44 c = .shift .p46 ∧
    move .p45 c = .shift .p46 ∧ move .p46 c = .shift .p46) (by decide) c hc

/-- The moves on the first digit. -/
theorem move_nonzero {c : UInt8} (hc : isDigit c = true)
    (hne : c ≠ byte '0') :
    move .p0 c = .shift .p26 ∧ move .p23 c = .shift .p41 :=
  @forall_digit (fun c => c ≠ byte '0' →
    move .p0 c = .shift .p26 ∧ move .p23 c = .shift .p41) (by decide) c hc hne

theorem route_move {l l' : Label} {c : UInt8} (h : move l c = .shift l')
    (s : Bytes) : scanner.route l (c :: s) = scanner.route l' s :=
  Scanner.route_cons (S := scanner) h s

theorem Digits.route_p41 {ds : Bytes} (h : Digits ds) :
    scanner.route .p41 ds = some .p41 :=
  Scanner.route_loop fun c hc => (move_digit (h c hc)).2.1

/-- Digits behind which a label is left for one where they go on. -/
theorem Digits.route {ds : Bytes} (h : Digits ds) (hne : ds ≠ [])
    {l l' : Label} (hfirst : ∀ c, isDigit c = true → move l c = .shift l')
    (hloop : ∀ c, isDigit c = true → move l' c = .shift l') :
    scanner.route l ds = some l' := by
  cases ds with
  | nil => exact absurd rfl hne
  | cons c ds =>
      rw [route_move (hfirst c (h c List.mem_cons_self))]
      exact Scanner.route_loop fun d hd =>
        hloop d (h d (List.mem_cons_of_mem _ hd))

theorem Whole.route {whole : Bytes} (h : Whole whole) (negative : Bool) :
    ∃ l, EndsWhole l ∧
      scanner.route .p0 (signText negative ++ whole) = some l := by
  cases h with
  | zero =>
      cases negative with
      | false => exact ⟨.p24, .inl rfl, rfl⟩
      | true => exact ⟨.p50, .inr (.inl rfl), rfl⟩
  | @digits c ds hc hne hds =>
      obtain ⟨hstart, hsign⟩ := move_nonzero hc hne
      cases negative with
      | false =>
          rw [signText, if_neg (by decide), List.nil_append,
            route_move hstart]
          by_cases hnil : ds = []
          · rw [hnil]
            exact ⟨.p26, .inr (.inr (.inl rfl)), rfl⟩
          · exact ⟨.p41, .inr (.inr (.inr rfl)), hds.route hnil
              (fun d hd => (move_digit hd).1)
              fun d hd => (move_digit hd).2.1⟩
      | true =>
          refine ⟨.p41, .inr (.inr (.inr rfl)), ?_⟩
          rw [signText, if_pos rfl, List.singleton_append,
            route_move (show move .p0 (byte '-') = .shift .p23 from rfl),
            route_move hsign]
          exact hds.route_p41

theorem Fraction.route {fraction digits : Bytes} (h : Fraction fraction digits)
    {l : Label} (hl : EndsWhole l) :
    ∃ l', EndsWhole l' ∧ scanner.route l fraction = some l' ∨
      l' = .p48 ∧ scanner.route l fraction = some l' := by
  cases h with
  | absent => exact ⟨l, .inl ⟨hl, rfl⟩⟩
  | digits hds hne =>
      refine ⟨.p48, .inr ⟨rfl, ?_⟩⟩
      have hpoint : move l (byte '.') = .shift .p43 := by
        rcases hl with rfl | rfl | rfl | rfl <;> rfl
      rw [route_move hpoint]
      exact hds.route hne (fun d hd => (move_digit hd).2.2.1)
        fun d hd => (move_digit hd).2.2.2.1

theorem ExponentSign.route {sign ds : Bytes} {f : ℤ → ℤ}
    (h : ExponentSign sign f) (hds : Digits ds) (hne : ds ≠ []) :
    scanner.route .p44 (sign ++ ds) = some .p46 := by
  have hdigits := fun d (hd : isDigit d = true) => move_digit hd
  cases h with
  | absent =>
      exact hds.route hne (fun d hd => (hdigits d hd).2.2.2.2.1)
        fun d hd => (hdigits d hd).2.2.2.2.2.2
  | plus | minus =>
      rw [List.singleton_append, @route_move _ .p45 _ rfl]
      exact hds.route hne (fun d hd => (hdigits d hd).2.2.2.2.2.1)
        fun d hd => (hdigits d hd).2.2.2.2.2.2

theorem Exponent.route {exponent : Bytes} {x : ℤ} (h : Exponent exponent x)
    {l : Label} (hl : EndsWhole l ∨ l = .p48) :
    ∃ l', EndsNumber l' ∧ scanner.route l exponent = some l' := by
  cases h with
  | absent =>
      refine ⟨l, ?_, rfl⟩
      rcases hl with (rfl | rfl | rfl | rfl) | rfl <;> simp [EndsNumber]
  | @present e sign ds f he hsign hds hne =>
      refine ⟨.p46, by simp [EndsNumber], ?_⟩
      have hletter : move l e = .shift .p44 := by
        rcases hl with (rfl | rfl | rfl | rfl) | rfl <;>
        rcases he with rfl | rfl <;> rfl
      rw [route_move hletter]
      exact hsign.route hds hne

/-- A number literal is one token. -/
theorem NumberLiteral.scan {text : Bytes} {negative : Bool} {q : ℚ≥0}
    (h : NumberLiteral text negative q) {rest : Bytes} (hrest : Ends rest) :
    stringLexer.scan (text ++ rest) = some (⟨.value_number, text⟩, rest) := by
  obtain ⟨negative, hw, hf, he⟩ := h
  obtain ⟨l₁, hl₁, hroute₁⟩ := hw.route negative
  obtain ⟨l₂, hl₂, hroute₂⟩ : ∃ l₂, (EndsWhole l₂ ∨ l₂ = .p48) ∧
      scanner.route l₁ _ = some l₂ := by
    obtain ⟨l₂, ⟨hl₂, hroute₂⟩ | ⟨hl₂, hroute₂⟩⟩ := hf.route hl₁
    · exact ⟨l₂, .inl hl₂, hroute₂⟩
    · exact ⟨l₂, .inr hl₂, hroute₂⟩
  obtain ⟨l₃, hl₃, hroute₃⟩ := he.route hl₂
  refine Scanner.scan_stop (S := scanner) (l := l₃) ?_ ?_
  · rw [← List.append_assoc]
    refine (Scanner.route_append (S := scanner) hroute₁ _).trans ?_
    exact (Scanner.route_append (S := scanner) hroute₂ _).trans hroute₃
  · refine move_stop hl₃ ?_
    cases hhead : rest with
    | nil => rfl
    | cons c rest => exact hrest c (by rw [hhead]; rfl)

/-! ### Values -/

theorem Digits.takeWhile_append {ds tail : Bytes} (h : Digits ds)
    (htail : ∀ c, tail.head? = some c → isDigit c = false) :
    (ds ++ tail).takeWhile isDigit = ds := by
  rw [takeWhile_append_of_head htail]
  exact List.takeWhile_eq_self_iff.mpr h

theorem Digits.dropWhile_append {ds tail : Bytes} (h : Digits ds)
    (htail : ∀ c, tail.head? = some c → isDigit c = false) :
    (ds ++ tail).dropWhile isDigit = tail := by
  rw [dropWhile_append_of_head htail, List.dropWhile_eq_nil_iff.mpr h,
    List.nil_append]

theorem Whole.isDigits {whole : Bytes} (h : Whole whole) : Digits whole := by
  cases h with
  | zero =>
      intro c hc
      rw [List.mem_singleton] at hc
      subst hc
      rfl
  | digits hc _ hds =>
      intro d hd
      rcases List.mem_cons.mp hd with rfl | hd
      · exact hc
      · exact hds d hd

theorem Whole.ne_nil {whole : Bytes} (h : Whole whole) : whole ≠ [] := by
  cases h <;> exact List.cons_ne_nil _ _

/-- Behind the digits an exponent begins with a letter. -/
theorem Exponent.head {exponent : Bytes} {x : ℤ} (h : Exponent exponent x) :
    ∀ c, exponent.head? = some c → c = byte 'e' ∨ c = byte 'E' := by
  intro c hc
  cases h with
  | absent => cases hc
  | present he _ _ _ =>
      cases hc
      exact he

theorem Exponent.head_not_digit {exponent : Bytes} {x : ℤ}
    (h : Exponent exponent x) :
    ∀ c, exponent.head? = some c → isDigit c = false := by
  intro c hc
  rcases h.head c hc with rfl | rfl <;> rfl

theorem exponentPart_digits {sign ds : Bytes} {f : ℤ → ℤ}
    (hsign : ExponentSign sign f) (hds : Digits ds) (hne : ds ≠ []) :
    exponentPart (sign ++ ds) = some (f (digitsValue 10 ds), []) := by
  have htake : ds.takeWhile isDigit = ds := List.takeWhile_eq_self_iff.mpr hds
  have hdrop : ds.dropWhile isDigit = [] := List.dropWhile_eq_nil_iff.mpr hds
  cases hsign with
  | absent =>
      have hhead : ∀ c, isDigit c = false → ds.head? ≠ some c := by
        intro c hc heq
        have := hds c (List.mem_of_head? heq)
        rw [hc] at this
        cases this
      simp [exponentPart, hhead (byte '-') rfl, hhead (byte '+') rfl, htake,
        hdrop, hne]
  | plus =>
      simp [exponentPart, htake, hdrop, hne, show byte '+' ≠ byte '-' by decide]
  | minus => simp [exponentPart, htake, hdrop, hne]

theorem Exponent.scale_eq {exponent : Bytes} {x : ℤ}
    (h : Exponent exponent x) (m : ℚ≥0) :
    scale 10 'e' (m, exponent) = (m * 10 ^ x, []) := by
  cases h with
  | absent => simp [scale]
  | present he hsign hds hne =>
      rw [scale]
      dsimp only
      rw [if_pos (show _ ∨ _ = byte 'e'.toUpper from he),
        exponentPart_digits hsign hds hne]
      rfl

theorem mantissa_literal {whole fraction digits exponent : Bytes} {x : ℤ}
    (hw : Whole whole) (hf : Fraction fraction digits)
    (he : Exponent exponent x) :
    mantissa 10 isDigit (whole ++ (fraction ++ exponent)) =
      some ((digitsValue 10 (whole ++ digits) / 10 ^ digits.length : ℚ≥0),
        exponent) := by
  cases hf with
  | absent =>
      rw [List.nil_append, mantissa, hw.isDigits.takeWhile_append
        he.head_not_digit, hw.isDigits.dropWhile_append he.head_not_digit]
      cases hexponent : exponent with
      | nil =>
          dsimp only
          rw [if_neg hw.ne_nil]
          simp
      | cons c rest =>
          have hc : c ≠ byte '.' := by
            rintro rfl
            rcases he.head _ (by rw [hexponent]; rfl) with h | h <;> cases h
          dsimp only
          rw [if_neg hc, if_neg hw.ne_nil]
          simp
  | digits hds hne =>
      have hpoint : ∀ c, (byte '.' :: digits ++ exponent).head? = some c →
          isDigit c = false := by
        rintro c hc
        cases hc
        rfl
      rw [mantissa, hw.isDigits.takeWhile_append hpoint,
        hw.isDigits.dropWhile_append hpoint, List.cons_append]
      dsimp only
      rw [if_pos rfl, hds.takeWhile_append he.head_not_digit,
        hds.dropWhile_append he.head_not_digit, if_neg fun h => hne h.2]
      simp

theorem hexadecimal_literal {whole fraction digits exponent : Bytes} {x : ℤ}
    (hw : Whole whole) (hf : Fraction fraction digits)
    (he : Exponent exponent x) :
    hexadecimal (whole ++ (fraction ++ exponent)) = none := by
  have hletter : ∀ c, (fraction ++ exponent).head? = some c →
      ¬(c = byte 'x' ∨ c = byte 'X') := by
    intro c hc
    cases hf with
    | absent =>
        rcases he.head c hc with rfl | rfl <;> decide
    | digits =>
        cases hc
        decide
  cases hw with
  | zero =>
      rw [List.singleton_append]
      cases hrest : fraction ++ exponent with
      | nil => rfl
      | cons c rest =>
          rw [hexadecimal, if_neg fun h =>
            hletter c (by rw [hrest]; rfl) h.2]
  | @digits c ds _ hne _ =>
      rw [List.cons_append]
      cases ds ++ (fraction ++ exponent) with
      | nil => rfl
      | cons d rest => rw [hexadecimal, if_neg fun h => hne h.1]

theorem numeral_literal {whole fraction digits exponent : Bytes} {x : ℤ}
    (hw : Whole whole) (hf : Fraction fraction digits)
    (he : Exponent exponent x) :
    numeral 10 isDigit 10 'e' (whole ++ (fraction ++ exponent)) =
      some ((digitsValue 10 (whole ++ digits) / 10 ^ digits.length *
        10 ^ x : ℚ≥0), []) := by
  rw [numeral, mantissa_literal hw hf he]
  exact congrArg some (he.scale_eq _)

/-- `strtod` reads a number literal to its end, as the double nearest to its
decimal value. -/
theorem NumberLiteral.strtod_eq {text : Bytes} {negative : Bool} {q : ℚ≥0}
    (h : NumberLiteral text negative q) :
    strtod text = (Double.round negative q, []) := by
  obtain @⟨whole, fraction, _, exponent, _, negative, hw, hf, he⟩ := h
  have hhex := hexadecimal_literal hw hf he
  have hnumeral := numeral_literal hw hf he
  have hhead : (whole ++ (fraction ++ exponent)).head? ≠
      some (byte '-') := by
    cases hw with
    | zero => exact fun h => nomatch h
    | digits hc _ _ =>
        intro h
        cases h
        cases hc
  generalize whole ++ (fraction ++ exponent) = text at *
  cases negative with
  | true => simp [strtod, signText, hhex, hnumeral]
  | false => simp [strtod, signText, hhead, hhex, hnumeral]

end literals

end Rc2Compute.Format
