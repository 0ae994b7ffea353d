import Rc2Compute.Format.Numbers

/-!
# Parsing from a stream

A stream is read line by line while the scanner runs, and a line end may be
added behind its last line.  The tokens are those of the whole text, so the
parser gives the same result as on a string.
-/

namespace Rc2Compute.Format

open Scanner (Buffer)

/-- The buffer and the stream still hold the text, up to a line end behind
it. -/
def Holds (text : Bytes) (b : Buffer UInt8) : Prop :=
  b.text 0x0a = text ∨ b.text 0x0a = text ++ [0x0a]

/-- The first line of a text. -/
def firstLine (text : Bytes) : Bytes := text.takeWhile (· ≠ 0x0a)

/-- A number does not go on behind the end of its line. -/
theorem get_number_firstLine (token : LexToken) (following : Bytes) :
    get_number token following = get_number token (firstLine following) := by
  have hends : Ends (following.dropWhile (· ≠ 0x0a)) := by
    intro c hc
    have hnot := List.head?_dropWhile_not (· ≠ (0x0a : UInt8)) following
    rw [hc] at hnot
    obtain rfl : c = 0x0a := by simpa using hnot
    rfl
  conv_lhs => rw [← List.takeWhile_append_dropWhile (p := (· ≠ (0x0a : UInt8)))
    (l := following)]
  exact get_number_append hends token _

theorem firstLine_newline (text rest : Bytes) :
    firstLine (text ++ 0x0a :: rest) = firstLine text :=
  takeWhile_append_of_head (fun c hc => by cases hc; rfl) text

/-- The buffer holds the whole line the cursor is in. -/
theorem firstLine_ahead (b : Buffer UInt8) :
    firstLine b.ahead = firstLine (b.text 0x0a) := by
  rw [Buffer.text, Buffer.pending]
  split
  next => rw [List.append_nil]
  next => rw [firstLine_newline]

theorem Holds.firstLine {text : Bytes} {b : Buffer UInt8} (h : Holds text b) :
    firstLine b.ahead = firstLine text := by
  rw [firstLine_ahead]
  rcases h with heq | heq
  · rw [heq]
  · rw [heq, firstLine_newline]

/-- The next token of the stream is the one of the text. -/
theorem Holds.scan {text : Bytes} {b : Buffer UInt8} (h : Holds text b) :
    ∃ token rest b', stringLexer.scan text = some (token, rest) ∧
      streamLexer.scan b = some (token, b') ∧ Holds rest b' := by
  obtain ⟨token, rest, hscan, -⟩ :=
    guards.scan_total guards.reached_fresh text
  have hready := padded.ready_request (l := .p0) (by decide) b
  have hbuffer := padded.scanBuffer_eq scanner.fresh
    (b.request 0x0a (needs .p0)) hready
  rw [Buffer.text_request] at hbuffer
  obtain ⟨tail, htail, hline⟩ : ∃ tail, (tail = [] ∨ tail = [0x0a]) ∧
      scanner.scan scanner.fresh (b.text 0x0a) = some (token, rest ++ tail) := by
    rcases h with heq | heq
    · exact ⟨[], .inl rfl, by rw [heq, List.append_nil, hscan]⟩
    · rw [heq]
      exact separates.scan_append (fun _ => rfl) hscan
  rw [hline, Option.map_eq_some_iff] at hbuffer
  obtain ⟨⟨token', b'⟩, hb', heq⟩ := hbuffer
  obtain ⟨rfl, htext⟩ := Prod.mk.inj heq
  refine ⟨token', rest, b', hscan, hb', ?_⟩
  rcases htail with rfl | rfl
  · exact .inl (by rw [← List.append_nil rest]; exact htext)
  · exact .inr htext

theorem simulates : Simulates stringLexer streamLexer Holds where
  scan h := by
    obtain ⟨token, rest, b', hscan, hscan', hrest⟩ := h.scan
    exact .inr ⟨token, rest, b', hscan, hscan', hrest⟩
  number token h := by
    rw [get_number_firstLine]
    conv_rhs => rw [get_number_firstLine]
    exact congrArg (get_number token) h.firstLine.symm

theorem holds_ofText (text : Bytes) : Holds text (.ofText 0x0a text) := by
  rw [Holds, Buffer.text_ofText, Buffer.closeLine]
  split
  · exact .inl rfl
  · exact .inr rfl

/-- The parser on a stream, whatever its fuel. -/
theorem parse_stream (fuel : ℕ) (text : Bytes) :
    parse streamLexer fuel (.ofText 0x0a text) = parse stringLexer fuel text :=
  (simulates.parse fuel (holds_ofText text)).symm

/-- Reading a document from a stream gives what `parse` gives of its text, for
every text: the same value, or the same error. -/
theorem parseStream_eq (text : Bytes) :
    parseStream text = parseString text :=
  parse_stream (fuelFor text) text

end Rc2Compute.Format
