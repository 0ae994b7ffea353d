import Mathlib.Data.List.Basic

/-!
# String literals

A language writes a text between quotes, with a backslash before a character
that would otherwise end the literal or begin an escape.  A source text is
read as code and literals: what stands between the quotes is not code.
-/

namespace Rc2Compute

/-- The literals of a language: the quote around them, what a backslash before
a character means, and the characters that stand for themselves. -/
structure LiteralSyntax where
  quote : Char
  escape : Char → Option Char
  plain : Char → Bool
  quote_ne : quote ≠ '\\'

/-- A backslash before every special character. -/
def escaped (special : Char → Prop) [DecidablePred special]
    (text : List Char) : List Char :=
  text.flatMap fun c => if special c then ['\\', c] else [c]

section escaped

variable {special : Char → Prop} [DecidablePred special]

@[simp] theorem escaped_nil : escaped special [] = [] := rfl

theorem escaped_cons_of_special {c : Char} (h : special c)
    (text : List Char) :
    escaped special (c :: text) = '\\' :: c :: escaped special text := by
  simp [escaped, h]

theorem escaped_cons_of_not {c : Char} (h : ¬special c) (text : List Char) :
    escaped special (c :: text) = c :: escaped special text := by
  simp [escaped, h]

theorem escaped_append (text rest : List Char) :
    escaped special (text ++ rest) =
      escaped special text ++ escaped special rest :=
  List.flatMap_append

theorem escaped_cons_ne_nil (c : Char) (text : List Char) :
    escaped special (c :: text) ≠ [] := by
  by_cases hc : special c
  · rw [escaped_cons_of_special hc]
    exact List.cons_ne_nil _ _
  · rw [escaped_cons_of_not hc]
    exact List.cons_ne_nil _ _

/-- The first character tells whether a backslash has been added, if the
backslash itself is special. -/
theorem escaped_cons_inj (hback : special '\\') {c d : Char}
    {text rest : List Char}
    (h : escaped special (c :: text) = escaped special (d :: rest)) :
    c = d ∧ escaped special text = escaped special rest := by
  by_cases hc : special c
  · by_cases hd : special d
    · rw [escaped_cons_of_special hc, escaped_cons_of_special hd] at h
      exact List.cons.inj (List.cons.inj h).2
    · rw [escaped_cons_of_special hc, escaped_cons_of_not hd] at h
      exact absurd ((List.cons.inj h).1 ▸ hback) hd
  · by_cases hd : special d
    · rw [escaped_cons_of_not hc, escaped_cons_of_special hd] at h
      exact absurd ((List.cons.inj h).1.symm ▸ hback) hc
    · rw [escaped_cons_of_not hc, escaped_cons_of_not hd] at h
      exact List.cons.inj h

theorem escaped_injective (hback : special '\\') :
    Function.Injective (escaped special) := by
  intro text
  induction text with
  | nil =>
      intro text' h
      match text' with
      | [] => rfl
      | d :: rest => exact absurd h.symm (escaped_cons_ne_nil d rest)
  | cons c text ih =>
      intro text' h
      match text' with
      | [] => exact absurd h (escaped_cons_ne_nil c text)
      | d :: rest =>
          obtain ⟨rfl, htext⟩ := escaped_cons_inj hback h
          rw [ih htext]

end escaped

namespace LiteralSyntax

variable (L : LiteralSyntax)

/-- The text of a literal and what comes behind it, read behind the opening
quote. -/
def read : List Char → Option (List Char × List Char)
  | '\\' :: c :: rest => do
      let meaning ← L.escape c
      let (text, behind) ← read rest
      some (meaning :: text, behind)
  | c :: rest =>
      if c = L.quote then
        some ([], rest)
      else if L.plain c then do
        let (text, behind) ← read rest
        some (c :: text, behind)
      else
        none
  | [] => none

variable {L}

theorem read_quote (rest : List Char) :
    L.read (L.quote :: rest) = some ([], rest) := by
  rw [read.eq_2 L L.quote rest fun _ _ h _ => L.quote_ne h, if_pos rfl]

theorem read_escape {c meaning : Char} {rest text behind : List Char}
    (hescape : L.escape c = some meaning)
    (hrest : L.read rest = some (text, behind)) :
    L.read ('\\' :: c :: rest) = some (meaning :: text, behind) := by
  rw [read, hescape, hrest]
  rfl

theorem read_plain {c : Char} {rest text behind : List Char}
    (hback : c ≠ '\\') (hquote : c ≠ L.quote) (hplain : L.plain c = true)
    (hrest : L.read rest = some (text, behind)) :
    L.read (c :: rest) = some (c :: text, behind) := by
  rw [read.eq_2 L c rest fun _ _ h _ => hback h, if_neg hquote, if_pos hplain,
    hrest]
  rfl

variable {special : Char → Prop} [DecidablePred special]

/-- A text is read back, and the literal ends where it was closed, if every
quote in the text is special. -/
theorem read_escaped (hescape : ∀ c, special c → L.escape c = some c)
    (hback : special '\\') {text : List Char}
    (htext : ∀ c ∈ text, special c ∨ c ≠ L.quote ∧ L.plain c = true)
    (rest : List Char) :
    L.read (escaped special text ++ L.quote :: rest) = some (text, rest) := by
  induction text with
  | nil => exact read_quote rest
  | cons c text ih =>
      obtain ⟨hc, htext⟩ := List.forall_mem_cons.mp htext
      by_cases hspecial : special c
      · rw [escaped_cons_of_special hspecial]
        exact read_escape (hescape c hspecial) (ih htext)
      · obtain ⟨hquote, hplain⟩ := hc.resolve_left hspecial
        have hne : c ≠ '\\' := by
          rintro rfl
          exact hspecial hback
        rw [escaped_cons_of_not hspecial]
        exact read_plain hne hquote hplain (ih htext)

/-- A quote that is not special ends the literal where it stands in the
text. -/
theorem read_escaped_of_quote
    (hescape : ∀ c, special c → L.escape c = some c)
    (hback : special '\\') (hquote : ¬special L.quote) {text : List Char}
    (htext : ∀ c ∈ text, special c ∨ c ≠ L.quote ∧ L.plain c = true)
    (behind rest : List Char) :
    L.read (escaped special (text ++ L.quote :: behind) ++ rest) =
      some (text, escaped special behind ++ rest) := by
  rw [escaped_append, escaped_cons_of_not hquote, List.append_assoc,
    List.cons_append]
  exact read_escaped hescape hback htext _

end LiteralSyntax

/-! ## Source texts -/

/-- What a source text is made of: characters of the code, and literals. -/
inductive Piece where
  | code (c : Char)
  | literal (text : List Char)
deriving DecidableEq, Repr

/-- The pieces of a text that is all code. -/
def codePieces (text : List Char) : List Piece :=
  text.map .code

/-- A text is read as these pieces.  `opens` says which literals the quotes
begin. -/
inductive Reads (opens : Char → Option LiteralSyntax) :
    List Char → List Piece → Prop where
  | nil : Reads opens [] []
  | code {c : Char} {rest : List Char} {pieces : List Piece}
      (hcode : opens c = none) (hrest : Reads opens rest pieces) :
      Reads opens (c :: rest) (.code c :: pieces)
  | literal {L : LiteralSyntax} {c : Char} {rest text behind : List Char}
      {pieces : List Piece} (hopens : opens c = some L)
      (hread : L.read rest = some (text, behind))
      (hrest : Reads opens behind pieces) :
      Reads opens (c :: rest) (.literal text :: pieces)

section Reads

variable {opens : Char → Option LiteralSyntax} {rest : List Char}
  {pieces : List Piece}

theorem reads_code_append {code : List Char}
    (hcode : ∀ c ∈ code, opens c = none) :
    Reads opens (code ++ rest) (codePieces code ++ pieces) ↔
      Reads opens rest pieces := by
  induction code with
  | nil => exact Iff.rfl
  | cons c code ih =>
      obtain ⟨hc, hcode⟩ := List.forall_mem_cons.mp hcode
      rw [← ih hcode]
      constructor
      · rintro ⟨⟩
        assumption
      · exact Reads.code hc

theorem reads_codePieces {code : List Char}
    (hcode : ∀ c ∈ code, opens c = none) :
    Reads opens code (codePieces code) := by
  have h : Reads opens (code ++ []) (codePieces code ++ []) :=
    (reads_code_append hcode).mpr .nil
  rwa [List.append_nil, List.append_nil] at h

theorem reads_literal {L : LiteralSyntax} {c : Char} {text : List Char}
    (hopens : opens c = some L) :
    Reads opens (c :: rest) (.literal text :: pieces) ↔
      ∃ behind, L.read rest = some (text, behind) ∧
        Reads opens behind pieces := by
  constructor
  · intro h
    cases h with
    | literal hopens' hread hrest =>
        rw [hopens] at hopens'
        obtain rfl := Option.some.inj hopens'
        exact ⟨_, hread, hrest⟩
  · rintro ⟨behind, hread, hrest⟩
    exact .literal hopens hread hrest

end Reads

end Rc2Compute
