import Rc2Compute.Format.Grammar

/-!
# The tokens the scanner gives

The moves of the automaton, checked for every label and every byte: the marker
is set before the cursor goes back, the buffer is filled early enough, and a
line end separates tokens.  A string token consists of whole characters and
escapes, so its value can be computed.  With this the parser on a string
accepts what the grammar derives, and fails only as it may.
-/

namespace Rc2Compute.Format

/-- The bytes of a range, one by one. -/
theorem forall_between {low len : ℕ} {P : UInt8 → Prop}
    (h : ∀ n < len, P (UInt8.ofNat (low + n))) {c : UInt8}
    (hlow : low ≤ c.toNat) (hhigh : c.toNat < low + len) : P c := by
  have := h (c.toNat - low) (by omega)
  rwa [Nat.add_sub_cancel' hlow, UInt8.ofNat_toNat] at this

theorem forall_digit {P : UInt8 → Prop}
    (h : ∀ n < 10, P (UInt8.ofNat (0x30 + n))) {c : UInt8}
    (hc : isDigit c = true) : P c := by
  have hrange := of_decide_eq_true hc
  exact forall_between h hrange.1 (Nat.lt_succ_of_le hrange.2)

/-! ## The moves -/

section moves

/-- The labels at which the marker is set. -/
def armed : Label → Bool
  | .p6 | .p20 | .p21 | .p22 | .p27 | .p24 | .p26 | .p41 | .p48 | .p50
  | .p64 | .p60 | .p61 | .p56 | .p57 | .p51 | .p52 | .p53 | .p43 | .p44
  | .p45 | .p31 | .p34 | .p37 | .p38 | .p39 | .p40 => true
  | _ => false

/-- How many characters the cursor may take before the buffer is filled
again. -/
def reach : Label → ℕ
  | .p0 => 5
  | .p22 | .p23 => 4
  | .p20 | .p21 | .p24 | .p26 | .p41 | .p48 | .p50 | .p51 => 3
  | .p6 | .p44 | .p52 | .p56 | .p60 => 2
  | _ => 1

/-- What a label may do, whichever byte it reads. -/
def InOrder (l : Label) : Move Label token_type → Prop
  | .shift l' =>
      l' ≠ .p0 ∧ (armed l' = true → marks l' ≠ none ∨ armed l = true) ∧
        (needs l' = 0 → reach l' < reach l)
  | .accept kind => kind = .end_of_input → l = .p0
  | .stop kind => l ≠ .p0 ∧ kind ≠ .value_string ∧ kind ≠ .end_of_input
  | .backtrack => l ≠ .p0 ∧ armed l = true
  | .skip => l ≠ .p0
  | .restart => l = .p2 ∨ l = .p4

instance (l : Label) : DecidablePred (InOrder l)
  | .shift _ => inferInstanceAs (Decidable (_ ∧ _))
  | .accept _ => inferInstanceAs (Decidable (_ → _))
  | .stop _ => inferInstanceAs (Decidable (_ ∧ _))
  | .backtrack => inferInstanceAs (Decidable (_ ∧ _))
  | .skip => inferInstanceAs (Decidable (_ ≠ _))
  | .restart => inferInstanceAs (Decidable (_ ∨ _))

theorem InOrder.ite {l : Label} {p : Prop} [Decidable p]
    {m m' : Move Label token_type} (h : InOrder l m) (h' : InOrder l m') :
    InOrder l (if p then m else m') := by
  split
  · exact h
  · exact h'

theorem move_inOrder (l : Label) (c : UInt8) : InOrder l (move l c) := by
  cases l <;> simp only [move, moveStart, moveLetter, moveDigits, moveZero,
    moveString, moveHex] <;> repeat' apply InOrder.ite
  all_goals decide

theorem inOrder {l : Label} {c : UInt8} {m : Move Label token_type}
    (h : move l c = m) : InOrder l m := by
  rw [← h]
  exact move_inOrder l c

/-- No label reads on at the byte behind the text. -/
theorem move_zero (l : Label) :
    (∃ kind, move l 0x00 = .stop kind) ∨ move l 0x00 = .backtrack ∨
      move l 0x00 = .restart ∨
      l = .p0 ∧ move l 0x00 = .accept .end_of_input := by
  cases l with
  | p0 => exact .inr (.inr (.inr ⟨rfl, rfl⟩))
  | p2 | p4 => exact .inr (.inr (.inl rfl))
  | _ => first | exact .inl ⟨_, rfl⟩ | exact .inr (.inl rfl)

theorem shift_ne_zero {l l' : Label} {c : UInt8} (h : move l c = .shift l') :
    c ≠ 0x00 := by
  rintro rfl
  rcases move_zero l with ⟨kind, hz⟩ | hz | hz | ⟨-, hz⟩ <;>
    cases hz.symm.trans h

/-- Behind a line end the buffer is filled. -/
theorem needs_of_newline {l l' : Label} (h : move l 0x0a = .shift l') :
    needs l' ≠ 0 := by
  cases l <;> cases h <;> decide

theorem guards : scanner.Guards (armed · = true) where
  begins c := by
    have h := inOrder (l := .p0) (c := c) rfl
    show (∃ l, move .p0 c = .shift l) ∨ ∃ kind, move .p0 c = .accept kind
    cases hmove : move .p0 c with
    | shift l => exact .inl ⟨l, rfl⟩
    | accept kind => exact .inr ⟨kind, rfl⟩
    | stop kind | backtrack =>
        rw [hmove] at h
        exact absurd rfl h.1
    | skip =>
        rw [hmove] at h
        exact absurd rfl h
    | restart =>
        rw [hmove] at h
        rcases h with h | h <;> cases h
  start := by decide
  entered l c l' hmove := (inOrder hmove).1
  back l c hmove := (inOrder hmove).2
  armed l c l' hmove := (inOrder hmove).2.1
  ends l := by
    have hz := move_zero l
    refine ⟨fun hmove => ?_, fun l' hmove => shift_ne_zero hmove rfl⟩
    rcases hz with ⟨kind, hz⟩ | hz | hz | ⟨-, hz⟩ <;>
      cases hz.symm.trans hmove

theorem padded : scanner.Padded 0x0a needs reach where
  pos l := by cases l <;> decide
  start := by decide
  checked l := by cases l <;> decide
  unchecked l c l' hmove hneeds :=
    ⟨by rintro rfl; exact needs_of_newline hmove hneeds,
      (inOrder hmove).2.2 hneeds⟩

/-- The labels behind white space. -/
def IsGap (l : Label) : Prop := l = .p2 ∨ l = .p4

theorem separates : scanner.Separates 0x0a IsGap where
  again l hl := by
    refine ⟨.p4, .inr rfl, ?_⟩
    rcases hl with rfl | rfl | rfl <;> rfl
  restart l hl := by
    rcases hl with rfl | rfl <;> rfl
  accept := ⟨.end_of_input, rfl⟩
  other l hstart hgap := by
    cases l with
    | p0 => exact absurd rfl hstart
    | p2 => exact absurd (.inl rfl) hgap
    | p4 => exact absurd (.inr rfl) hgap
    | _ => exact ⟨rfl, by first | exact .inl rfl | exact .inr ⟨_, rfl⟩⟩
  entered l c l' hmove := (inOrder hmove).1

end moves

/-! ## String tokens -/

section strings

/-- A character of a string literal: a plain one, an escape, or an escape with
four hexadecimal digits. -/
inductive Item : Bytes → Prop where
  | plain {c : UInt8} (hc : isPlain c = true) : Item [c]
  | escape {e : UInt8} (he : isEscape e = true) : Item [byte '\\', e]
  | unicode {h1 h2 h3 h4 : UInt8} (hh1 : isHexDigit h1 = true)
      (hh2 : isHexDigit h2 = true) (hh3 : isHexDigit h3 = true)
      (hh4 : isHexDigit h4 = true) :
      Item [byte '\\', byte 'u', h1, h2, h3, h4]

/-- What may stand between the quotes. -/
inductive Body : Bytes → Prop where
  | nil : Body []
  | cons {item rest : Bytes} (h : Item item) (hrest : Body rest) :
      Body (item ++ rest)

theorem Body.append {s t : Bytes} (hs : Body s) (ht : Body t) :
    Body (s ++ t) := by
  induction hs with
  | nil => exact ht
  | cons h _ ih =>
      rw [List.append_assoc]
      exact .cons h ih

theorem Body.item {item : Bytes} (h : Item item) : Body item := by
  have := Body.cons h .nil
  rwa [List.append_nil] at this

/-- How far a string literal has been read at a label. -/
def InString (read : Bytes) : Label → Prop
  | .p0 => read = []
  | .p27 | .p31 => ∃ s, Body s ∧ read = byte '"' :: s
  | .p34 => ∃ s, Body s ∧ read = byte '"' :: (s ++ [byte '\\'])
  | .p37 => ∃ s, Body s ∧ read = byte '"' :: (s ++ [byte '\\', byte 'u'])
  | .p38 => ∃ s h1, Body s ∧ isHexDigit h1 = true ∧
      read = byte '"' :: (s ++ [byte '\\', byte 'u', h1])
  | .p39 => ∃ s h1 h2, Body s ∧ isHexDigit h1 = true ∧ isHexDigit h2 = true ∧
      read = byte '"' :: (s ++ [byte '\\', byte 'u', h1, h2])
  | .p40 => ∃ s h1 h2 h3, Body s ∧ isHexDigit h1 = true ∧
      isHexDigit h2 = true ∧ isHexDigit h3 = true ∧
      read = byte '"' :: (s ++ [byte '\\', byte 'u', h1, h2, h3])
  | _ => True

/-- From which label, and by which bytes, a label within a string is
reached. -/
def Precedes (l : Label) (c : UInt8) : Label → Prop
  | .p27 => l = .p0 ∧ c = byte '"'
  | .p31 => (l = .p27 ∨ l = .p31) ∧ isPlain c = true ∨
      l = .p34 ∧ isEscape c = true ∨ l = .p40 ∧ isHexDigit c = true
  | .p34 => (l = .p27 ∨ l = .p31) ∧ c = byte '\\'
  | .p37 => l = .p34 ∧ c = byte 'u'
  | .p38 => l = .p37 ∧ isHexDigit c = true
  | .p39 => l = .p38 ∧ isHexDigit c = true
  | .p40 => l = .p39 ∧ isHexDigit c = true
  | _ => True

/-- The moves that lead into a string or through it, and the one that ends
it. -/
def StringMove (l : Label) (c : UInt8) : Move Label token_type → Prop
  | .shift l' => l' ≠ .p0 ∧ Precedes l c l'
  | .accept kind => kind = .value_string →
      (l = .p27 ∨ l = .p31) ∧ c = byte '"'
  | .stop kind => kind ≠ .value_string
  | _ => True

theorem StringMove.ite {l : Label} {c : UInt8} {p : Prop} [Decidable p]
    {m m' : Move Label token_type} (h : p → StringMove l c m)
    (h' : ¬p → StringMove l c m') : StringMove l c (if p then m else m') := by
  split
  next hp => exact h hp
  next hp => exact h' hp

/-- What is neither plain nor a control character nor a quote is a
backslash. -/
theorem eq_backslash {c : UInt8} (hplain : ¬isPlain c = true)
    (hcontrol : ¬c ≤ 0x0f) (hquote : c ≠ byte '"') : c = byte '\\' := by
  by_contra hc
  refine hplain (decide_eq_true ⟨?_, hquote, hc⟩)
  rw [UInt8.le_iff_toNat_le] at hcontrol ⊢
  simp only [UInt8.reduceToNat] at hcontrol ⊢
  omega

theorem moveString_stringMove {l : Label} (hl : l = .p27 ∨ l = .p31)
    (c : UInt8) : StringMove l c (moveString c) := by
  rw [moveString]
  refine StringMove.ite (fun hplain => ?_) fun hplain => ?_
  · exact ⟨by decide, .inl ⟨hl, hplain⟩⟩
  refine StringMove.ite (fun _ => trivial) fun hcontrol => ?_
  refine StringMove.ite (fun hquote _ => ⟨hl, hquote⟩) fun hquote => ?_
  exact ⟨by decide, hl, eq_backslash hplain hcontrol hquote⟩

theorem moveHex_stringMove {l l' : Label} {c : UInt8} (hl' : l' ≠ .p0)
    (h : isHexDigit c = true → Precedes l c l') :
    StringMove l c (moveHex c l') :=
  StringMove.ite (fun hc => ⟨hl', h hc⟩) fun _ => trivial

theorem move_stringMove (l : Label) (c : UInt8) :
    StringMove l c (move l c) := by
  cases l with
  | p27 =>
      refine StringMove.ite (fun _ => token_type.noConfusion) fun _ => ?_
      exact moveString_stringMove (.inl rfl) c
  | p31 => exact moveString_stringMove (.inr rfl) c
  | p34 =>
      refine StringMove.ite (fun hc => ⟨by decide, .inr (.inl ⟨rfl, hc⟩)⟩) ?_
      intro _
      exact StringMove.ite (fun hc => ⟨by decide, rfl, hc⟩) fun _ => trivial
  | p37 | p38 | p39 =>
      exact moveHex_stringMove (by decide) fun hc => ⟨rfl, hc⟩
  | p40 =>
      exact moveHex_stringMove (by decide) fun hc => .inr (.inr ⟨rfl, hc⟩)
  | _ =>
      simp only [move, moveStart, moveLetter, moveDigits, moveZero]
      repeat' refine StringMove.ite (fun hc => ?_) fun hc => ?_
      all_goals simp_all [StringMove, Precedes]

theorem stringMove {l : Label} {c : UInt8} {m : Move Label token_type}
    (h : move l c = m) : StringMove l c m := by
  rw [← h]
  exact move_stringMove l c

theorem inString_shift {l l' : Label} {c : UInt8} {read : Bytes}
    (h : InString read l) (hne : l' ≠ .p0) (hprec : Precedes l c l') :
    InString (read ++ [c]) l' := by
  cases l' with
  | p0 => exact absurd rfl hne
  | p27 =>
      obtain ⟨rfl, rfl⟩ := hprec
      rw [show read = [] from h]
      exact ⟨[], .nil, rfl⟩
  | p31 =>
      rcases hprec with ⟨hl, hc⟩ | ⟨rfl, hc⟩ | ⟨rfl, hc⟩
      · obtain ⟨s, hs, rfl⟩ : ∃ s, Body s ∧ read = byte '"' :: s := by
          rcases hl with rfl | rfl <;> exact h
        exact ⟨_, hs.append (.item (.plain hc)), rfl⟩
      · obtain ⟨s, hs, rfl⟩ := h
        refine ⟨_, hs.append (.item (.escape hc)), ?_⟩
        rw [List.cons_append, List.append_assoc]
        rfl
      · obtain ⟨s, h1, h2, h3, hs, hh1, hh2, hh3, rfl⟩ := h
        refine ⟨_, hs.append (.item (.unicode hh1 hh2 hh3 hc)), ?_⟩
        rw [List.cons_append, List.append_assoc]
        rfl
  | p34 =>
      obtain ⟨hl, rfl⟩ := hprec
      obtain ⟨s, hs, rfl⟩ : ∃ s, Body s ∧ read = byte '"' :: s := by
        rcases hl with rfl | rfl <;> exact h
      exact ⟨s, hs, rfl⟩
  | p37 =>
      obtain ⟨rfl, rfl⟩ := hprec
      obtain ⟨s, hs, rfl⟩ := h
      exact ⟨s, hs, by rw [List.cons_append, List.append_assoc]; rfl⟩
  | p38 =>
      obtain ⟨rfl, hc⟩ := hprec
      obtain ⟨s, hs, rfl⟩ := h
      exact ⟨s, c, hs, hc, by rw [List.cons_append, List.append_assoc]; rfl⟩
  | p39 =>
      obtain ⟨rfl, hc⟩ := hprec
      obtain ⟨s, h1, hs, hh1, rfl⟩ := h
      exact ⟨s, h1, c, hs, hh1, hc,
        by rw [List.cons_append, List.append_assoc]; rfl⟩
  | p40 =>
      obtain ⟨rfl, hc⟩ := hprec
      obtain ⟨s, h1, h2, hs, hh1, hh2, rfl⟩ := h
      exact ⟨s, h1, h2, c, hs, hh1, hh2, hc,
        by rw [List.cons_append, List.append_assoc]; rfl⟩
  | _ => trivial

/-- The text of a string token. -/
def IsLiteral (token : LexToken) : Prop :=
  token.kind = .value_string →
    ∃ s, Body s ∧ token.text = byte '"' :: (s ++ [byte '"'])

theorem marks_ne_string {l : Label} {kind : token_type}
    (h : marks l = some kind) : kind ≠ .value_string := by
  rintro rfl
  cases l <;> cases h

/-- The invariant of a run: what has been read of a string, and that going
back does not give a string. -/
def StringRun (c : Scanner.Cursor Label UInt8 token_type) : Prop :=
  InString c.read c.label ∧
    ∀ kind k, c.marker = some (kind, k) → kind ≠ .value_string

theorem stringRun : scanner.Maintains StringRun IsLiteral where
  fresh := ⟨rfl, fun _ _ h => nomatch h⟩
  go := by
    rintro c x next ⟨hread, hmarker⟩ hstep
    rw [Scanner.step] at hstep
    split at hstep
    next l hmove =>
      cases hstep
      have hstring := stringMove (show move c.label x = _ from hmove)
      refine ⟨inString_shift hread hstring.1 hstring.2, fun kind k hk => ?_⟩
      rw [Scanner.enter] at hk
      dsimp only at hk
      split at hk
      next kind' hmarks =>
        cases hk
        exact marks_ne_string hmarks
      next => exact hmarker kind k hk
    next => cases hstep
    next => cases hstep
    next => split at hstep <;> cases hstep
    next =>
      cases hstep
      exact ⟨rfl, fun _ _ h => nomatch h⟩
    next => cases hstep
  give := by
    rintro c x token back ⟨hread, hmarker⟩ hstep hkind
    rw [Scanner.step] at hstep
    split at hstep
    next => cases hstep
    next kind hmove =>
      cases hstep
      obtain ⟨hl, rfl⟩ :=
        stringMove (show move c.label x = _ from hmove) hkind
      obtain ⟨s, hs, hread⟩ : ∃ s, Body s ∧ c.read = byte '"' :: s := by
        rcases hl with hl | hl <;>
        · rw [hl] at hread
          exact hread
      exact ⟨s, hs, by rw [hread]; rfl⟩
    next kind hmove =>
      cases hstep
      exact absurd hkind (stringMove (show move c.label x = _ from hmove))
    next =>
      split at hstep
      next kind k hk =>
        cases hstep
        exact absurd hkind (hmarker kind k hk)
      next => cases hstep
    next => cases hstep
    next => cases hstep

end strings

/-! ## The values of string tokens -/

section values

theorem unescape_plain {c : UInt8} (hc : c ≠ byte '\\') (rest : Bytes) :
    unescape (c :: rest) = (unescape rest).map (c :: ·) := by
  cases rest with
  | nil =>
      rw [unescape, unescape, if_neg hc]
      rfl
  | cons e rest =>
      rw [unescape.eq_def]
      dsimp only
      rw [if_pos hc]

theorem unescape_escape {e : UInt8} (he : e ≠ byte 'u') (rest : Bytes) :
    unescape (byte '\\' :: e :: rest) =
      (unescape rest).map (simpleEscape e ++ ·) := by
  rw [unescape.eq_def]
  dsimp only
  rw [if_neg (by simp), if_pos he]

theorem unescape_unicode {h1 h2 h3 h4 : UInt8}
    (h : isHighSurrogate (strtoul [h1, h2, h3, h4]) = false) (rest : Bytes) :
    unescape (byte '\\' :: byte 'u' :: h1 :: h2 :: h3 :: h4 :: rest) =
      to_unicode (strtoul [h1, h2, h3, h4]) 0 >>= fun chars =>
        (unescape rest).map (chars ++ ·) := by
  rw [unescape.eq_def]
  dsimp only
  rw [if_neg (by simp), if_neg (by simp)]
  rw [if_neg (by rw [h]; decide)]

theorem unescape_pair {h1 h2 h3 h4 : UInt8}
    (h : isHighSurrogate (strtoul [h1, h2, h3, h4]) = true)
    (g1 g2 g3 g4 : UInt8) (rest : Bytes) :
    unescape (byte '\\' :: byte 'u' :: h1 :: h2 :: h3 :: h4 ::
        byte '\\' :: byte 'u' :: g1 :: g2 :: g3 :: g4 :: rest) =
      to_unicode (strtoul [h1, h2, h3, h4]) (strtoul [g1, g2, g3, g4]) >>=
        fun chars => (unescape rest).map (chars ++ ·) := by
  rw [unescape.eq_def]
  dsimp only
  rw [if_neg (by simp), if_neg (by simp)]
  rw [if_pos h, if_pos ⟨rfl, rfl⟩]

theorem unescape_single {h1 h2 h3 h4 : UInt8}
    (h : isHighSurrogate (strtoul [h1, h2, h3, h4]) = true) {rest : Bytes}
    (hrest : ∀ tail, rest ≠ byte '\\' :: byte 'u' :: tail) :
    unescape (byte '\\' :: byte 'u' :: h1 :: h2 :: h3 :: h4 :: rest) =
      .error (.invalid_argument (ascii "missing low surrogate")) := by
  rw [unescape.eq_def]
  dsimp only
  rw [if_neg (by simp), if_neg (by simp)]
  rw [if_pos h]
  split
  next b u _ _ _ _ _ =>
    rw [if_neg]
    rintro ⟨rfl, rfl⟩
    exact hrest _ rfl
  next => rfl

theorem digitValue_lt {c : UInt8} (hc : isHexDigit c = true) :
    digitValue c < 16 := by
  rcases of_decide_eq_true hc with hc | ⟨hlow, hhigh⟩ | ⟨hlow, hhigh⟩
  · exact @forall_digit (digitValue · < 16) (by decide) c hc
  · exact @forall_between 0x41 6 (digitValue · < 16) (by decide) c hlow
      (Nat.lt_succ_of_le hhigh)
  · exact @forall_between 0x61 6 (digitValue · < 16) (by decide) c hlow
      (Nat.lt_succ_of_le hhigh)

theorem strtoul_lt {h1 h2 h3 h4 : UInt8} (hh1 : isHexDigit h1 = true)
    (hh2 : isHexDigit h2 = true) (hh3 : isHexDigit h3 = true)
    (hh4 : isHexDigit h4 = true) : strtoul [h1, h2, h3, h4] < 65536 := by
  have := digitValue_lt hh1
  have := digitValue_lt hh2
  have := digitValue_lt hh3
  have := digitValue_lt hh4
  simp only [strtoul, digitsValue, List.foldl_cons, List.foldl_nil]
  omega

theorem utf8_ok {codepoint : ℕ} (h : codepoint ≤ 0x10ffff) :
    ∃ chars, utf8 codepoint = .ok chars := by
  rw [utf8]
  split
  · exact ⟨_, rfl⟩
  split
  · exact ⟨_, rfl⟩
  split
  · exact ⟨_, rfl⟩
  exact ⟨_, rfl⟩

/-- Two code units make a code point, or the library complains. -/
theorem yields_to_unicode {a b : ℕ} (ha : a < 65536) :
    Yields (fun _ => True) Failure.Reported (to_unicode a b) := by
  rw [to_unicode]
  split
  next hhigh =>
    split
    next hlow =>
      have hle : a ≤ 0xdbff := (of_decide_eq_true hhigh).2
      have hcodepoint : (a <<< 10) + b - 0x35fdc00 ≤ 0x10ffff := by
        rw [Nat.shiftLeft_eq]
        omega
      generalize (a <<< 10) + b - 0x35fdc00 = codepoint at hcodepoint ⊢
      obtain ⟨chars, hchars⟩ := utf8_ok hcodepoint
      rw [hchars]
      trivial
    next => trivial
  next =>
    obtain ⟨chars, hchars⟩ := utf8_ok (show a ≤ 0x10ffff by omega)
    rw [hchars]
    trivial

/-- The first character of an item: only the escape with digits begins with a
backslash and `u`. -/
theorem Item.of_unicode {item rest tail : Bytes} (h : Item item)
    (heq : item ++ rest = byte '\\' :: byte 'u' :: tail) :
    ∃ g1 g2 g3 g4, isHexDigit g1 = true ∧ isHexDigit g2 = true ∧
      isHexDigit g3 = true ∧ isHexDigit g4 = true ∧
      item = [byte '\\', byte 'u', g1, g2, g3, g4] := by
  cases h with
  | plain hc =>
      cases heq
      cases hc
  | escape he =>
      cases heq
      cases he
  | unicode h1 h2 h3 h4 => exact ⟨_, _, _, _, h1, h2, h3, h4, rfl⟩

/-- The characters of a string literal have values, or the library complains
about a surrogate.  The induction is on the number of characters, as a pair of
surrogates takes two items. -/
theorem Body.yields_unescape {s : Bytes} (h : Body s) :
    Yields (fun _ => True) Failure.Reported (unescape s) := by
  induction hn : s.length using Nat.strongRecOn generalizing s with
  | ind n ih =>
      cases h with
      | nil => trivial
      | @cons item rest hitem hrest =>
          rw [List.length_append] at hn
          cases hitem with
          | plain hc =>
              have hc' : ∀ c, isPlain c = true → c ≠ byte '\\' := by
                rintro c hc rfl
                cases hc
              rw [List.singleton_append, unescape_plain (hc' _ hc)]
              exact (ih _ (by simp only [List.length_singleton] at hn; omega)
                hrest rfl).map
          | escape he =>
              have he' : ∀ e, isEscape e = true → e ≠ byte 'u' := by
                rintro e he rfl
                cases he
              rw [List.cons_append, List.singleton_append,
                unescape_escape (he' _ he)]
              exact (ih _ (by simp only [List.length_cons] at hn; omega)
                hrest rfl).map
          | @unicode h1 h2 h3 h4 hh1 hh2 hh3 hh4 =>
              have hunit := strtoul_lt hh1 hh2 hh3 hh4
              simp only [List.length_cons, List.length_nil] at hn
              simp only [List.cons_append, List.nil_append]
              by_cases hhigh :
                  isHighSurrogate (strtoul [h1, h2, h3, h4]) = true
              · by_cases hpair :
                    ∃ tail, rest = byte '\\' :: byte 'u' :: tail
                · obtain ⟨tail, rfl⟩ := hpair
                  generalize hs : byte '\\' :: byte 'u' :: tail = s at hrest
                  cases hrest with
                  | nil => cases hs
                  | cons hitem hrest =>
                      obtain ⟨g1, g2, g3, g4, hg1, hg2, hg3, hg4, rfl⟩ :=
                        hitem.of_unicode hs.symm
                      simp only [List.cons_append, List.nil_append] at hs hn ⊢
                      rw [unescape_pair hhigh]
                      refine (yields_to_unicode hunit).bind fun _ _ => ?_
                      refine (ih _ ?_ hrest rfl).map
                      have := congrArg List.length hs
                      simp only [List.length_cons] at this hn
                      omega
                · rw [unescape_single hhigh fun tail htail =>
                    hpair ⟨tail, htail⟩]
                  trivial
              · rw [unescape_unicode (Bool.eq_false_iff.mpr hhigh)]
                refine (yields_to_unicode hunit).bind fun _ _ => ?_
                exact Yields.map (ih _ (by omega) hrest rfl)

theorem IsLiteral.yields_get_string {token : LexToken} (h : IsLiteral token)
    (hkind : token.kind = .value_string) :
    Yields (fun _ => True) Failure.Reported (get_string token) := by
  obtain ⟨s, hs, htext⟩ := h hkind
  rw [get_string, htext, List.tail_cons, List.dropLast_concat]
  exact hs.yields_unescape

end values

/-! ## The lexer on a string -/

theorem advances : Advances stringLexer List.length where
  total text := by
    obtain ⟨token, rest, hscan, -⟩ :=
      guards.scan_total guards.reached_fresh text
    exact ⟨token, rest, hscan⟩
  smaller := by
    intro text token rest hscan hkind
    obtain ⟨token', rest', hscan', hlen⟩ :=
      guards.scan_total guards.reached_fresh text
    obtain ⟨rfl, rfl⟩ : token' = token ∧ rest' = rest := by
      have := hscan'.symm.trans hscan
      simpa using this
    rcases hlen with hlt | haccept
    · simpa [Scanner.fresh] using hlt
    · have heq : Move.accept token_type.end_of_input =
          Move.accept (L := Label) token'.kind := haccept
      exact absurd (Move.accept.inj heq).symm hkind
  string hscan hkind :=
    (stringRun.scan stringRun.fresh hscan).yields_get_string hkind

theorem parseString_of_derives {text : Bytes} {v : BasicJson}
    (h : ∃ xs, Tokenizes stringLexer text xs ∧ Derives xs (.value v)) :
    parseString text = .ok v :=
  (advances.parse_eq_ok (Nat.le_refl _) v).mpr h

/-- What `parse` does with a text. -/
theorem yields_parseString (text : Bytes) :
    Yields (fun v => ∃ xs, Tokenizes stringLexer text xs ∧
        Derives xs (.value v))
      (fun e => e.Reported ∨ e = .undefined ∧ HasOverflow stringLexer text)
      (parseString text) :=
  @Advances.yields_parse _ _ _ advances (fuelFor text) text (Nat.le_refl _)

theorem reported_of_parseString {text : Bytes} {e : Failure}
    (h : parseString text = .error e) :
    e.Reported ∨ e = .undefined ∧ HasOverflow stringLexer text := by
  have hyields := yields_parseString text
  rw [h] at hyields
  exact hyields

/-- `parse` accepts exactly the texts that the grammar derives, and gives the
values it derives for them.  It comes to an end on every text. -/
theorem parseString_eq_ok (text : Bytes) :
    (∀ v, parseString text = .ok v ↔
      ∃ xs, Tokenizes stringLexer text xs ∧ Derives xs (.value v)) ∧
    parseString text ≠ .error .outOfFuel := by
  constructor
  · exact advances.parse_eq_ok (Nat.le_refl _)
  · intro hfuel
    rcases reported_of_parseString hfuel with hreported | ⟨hundefined, -⟩
    · exact hreported
    · cases hundefined

/-- When `parse` fails it throws `invalid_argument`, or a number of the text
is beyond the range of integers. -/
theorem parseString_eq_error {text : Bytes} {e : Failure}
    (h : parseString text = .error e) :
    (∃ what, e = .invalid_argument what) ∨
      e = .undefined ∧ HasOverflow stringLexer text := by
  refine (reported_of_parseString h).imp_left fun hreported => ?_
  cases e with
  | invalid_argument what => exact ⟨what, rfl⟩
  | _ => exact hreported.elim

/-- A comma behind the last element. -/
theorem parseString_eq_error_comma :
    ∃ e, parseString (ascii "[null,]") = .error e ∧
      ((∃ what, e = .invalid_argument what) ∨
        e = .undefined ∧ HasOverflow stringLexer (ascii "[null,]")) := by
  have hok : (parseString (ascii "[null,]")).isOk = false := by
    decide +kernel
  cases hparse : parseString (ascii "[null,]") with
  | ok v =>
      rw [hparse] at hok
      cases hok
  | error e => exact ⟨e, rfl, parseString_eq_error hparse⟩

end Rc2Compute.Format
