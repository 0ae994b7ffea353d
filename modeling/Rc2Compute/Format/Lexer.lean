import Rc2Compute.Format.BasicJson
import Rc2Compute.Support.Scanner

/-!
# The lexer of the json library

The scanner re2c has generated, as an automaton whose states are the places
where it reads a character, the values of string and number tokens, and the
two sources it reads from: a string, and a stream it reads line by line.
-/

namespace Rc2Compute.Format

inductive token_type where
  | literal_true
  | literal_false
  | literal_null
  | value_string
  | value_number
  | begin_array
  | begin_object
  | end_array
  | end_object
  | name_separator
  | value_separator
  | parse_error
  | end_of_input
deriving DecidableEq, Repr

def token_type_name : token_type → String
  | .literal_true => "true literal"
  | .literal_false => "false literal"
  | .literal_null => "null literal"
  | .value_string => "string literal"
  | .value_number => "number literal"
  | .begin_array => "'['"
  | .begin_object => "'\x7b'"
  | .end_array => "']'"
  | .end_object => "'\x7d'"
  | .name_separator => "':'"
  | .value_separator => "','"
  | .parse_error => "<parse error>"
  | .end_of_input => "end of input"

/-! ## The automaton -/

/-- The labels of `scan` at which a character is read, by their numbers;
`p0` is the start. -/
inductive Label where
  | p0
  | p2 | p4
  | p6 | p64
  | p20 | p60 | p61
  | p21 | p56 | p57
  | p22 | p51 | p52 | p53
  | p23 | p24 | p26 | p41 | p43 | p44 | p45 | p46 | p48 | p50
  | p27 | p31 | p34 | p37 | p38 | p39 | p40
  | p30
deriving DecidableEq, Repr

/-- The entries of `yybm` with bit 32. -/
def isBlank (c : UInt8) : Bool :=
  c = 0x09 ∨ c = 0x0a ∨ c = 0x0d ∨ c = 0x20

/-- The entries of `yybm` with bit 64. -/
def isPlain (c : UInt8) : Bool :=
  0x10 ≤ c ∧ c ≠ byte '"' ∧ c ≠ byte '\\'

/-- The entries of `yybm` with bit 128. -/
def isDigit (c : UInt8) : Bool :=
  byte '0' ≤ c ∧ c ≤ byte '9'

def isHexDigit (c : UInt8) : Bool :=
  isDigit c ∨ (byte 'A' ≤ c ∧ c ≤ byte 'F') ∨ (byte 'a' ≤ c ∧ c ≤ byte 'f')

/-- The characters that may follow a backslash, apart from `u`. -/
def isEscape (c : UInt8) : Bool :=
  c = byte '"' ∨ c = byte '/' ∨ c = byte '\\' ∨ c = byte 'b' ∨
    c = byte 'f' ∨ c = byte 'n' ∨ c = byte 'r' ∨ c = byte 't'

/-- The dispatch on the first character of a token. -/
def moveStart (yych : UInt8) : Move Label token_type :=
  if yych = 0x00 then .accept .end_of_input
  else if yych = 0x0a then .shift .p4
  else if isBlank yych then .shift .p2
  else if yych = byte '"' then .shift .p27
  else if yych = byte ',' then .accept .value_separator
  else if yych = byte '-' then .shift .p23
  else if yych = byte '0' then .shift .p24
  else if isDigit yych then .shift .p26
  else if yych = byte ':' then .accept .name_separator
  else if yych = byte '[' then .accept .begin_array
  else if yych = byte ']' then .accept .end_array
  else if yych = byte 'f' then .shift .p22
  else if yych = byte 'n' then .shift .p20
  else if yych = byte 't' then .shift .p21
  else if yych = byte '{' then .accept .begin_object
  else if yych = byte '}' then .accept .end_object
  else if yych = 0xef then .shift .p6
  else .shift .p30

/-- The letters of a literal: the next one, or back to the first. -/
def moveLetter (letter yych : UInt8) (next : Move Label token_type) :
    Move Label token_type :=
  if yych = letter then next else .backtrack

/-- Labels 42 and 25: behind the digits of a whole number. -/
def moveDigits (yych : UInt8) : Move Label token_type :=
  if isDigit yych then .shift .p41
  else if yych = byte '.' then .shift .p43
  else if yych = byte 'E' ∨ yych = byte 'e' then .shift .p44
  else .stop .value_number

/-- Behind a leading zero. -/
def moveZero (yych : UInt8) : Move Label token_type :=
  if yych = byte '.' then .shift .p43
  else if yych = byte 'E' ∨ yych = byte 'e' then .shift .p44
  else .stop .value_number

/-- Label 32: in a string. -/
def moveString (yych : UInt8) : Move Label token_type :=
  if isPlain yych then .shift .p31
  else if yych ≤ 0x0f then .backtrack
  else if yych = byte '"' then .accept .value_string
  else .shift .p34

def moveHex (yych : UInt8) (next : Label) : Move Label token_type :=
  if isHexDigit yych then .shift next else .backtrack

def move (l : Label) (yych : UInt8) : Move Label token_type :=
  match l with
  | .p0 => moveStart yych
  | .p2 | .p4 => if isBlank yych then .shift .p4 else .restart
  | .p6 => if yych = 0xbb then .shift .p64 else .stop .parse_error
  | .p64 => if yych = 0xbf then .skip else .backtrack
  | .p20 =>
      if yych = byte 'u' then .shift .p60 else .stop .parse_error
  | .p60 => moveLetter (byte 'l') yych (.shift .p61)
  | .p61 => moveLetter (byte 'l') yych (.accept .literal_null)
  | .p21 =>
      if yych = byte 'r' then .shift .p56 else .stop .parse_error
  | .p56 => moveLetter (byte 'u') yych (.shift .p57)
  | .p57 => moveLetter (byte 'e') yych (.accept .literal_true)
  | .p22 =>
      if yych = byte 'a' then .shift .p51 else .stop .parse_error
  | .p51 => moveLetter (byte 'l') yych (.shift .p52)
  | .p52 => moveLetter (byte 's') yych (.shift .p53)
  | .p53 => moveLetter (byte 'e') yych (.accept .literal_false)
  | .p23 =>
      if yych = byte '0' then .shift .p50
      else if isDigit yych then .shift .p41
      else .stop .parse_error
  | .p24 | .p50 => moveZero yych
  | .p26 | .p41 => moveDigits yych
  | .p43 => if isDigit yych then .shift .p48 else .backtrack
  | .p44 =>
      if yych = byte '+' ∨ yych = byte '-' then .shift .p45
      else if isDigit yych then .shift .p46
      else .backtrack
  | .p45 => if isDigit yych then .shift .p46 else .backtrack
  | .p46 => if isDigit yych then .shift .p46 else .stop .value_number
  | .p48 =>
      if isDigit yych then .shift .p48
      else if yych = byte 'E' ∨ yych = byte 'e' then .shift .p44
      else .stop .value_number
  | .p27 =>
      if yych ≤ 0x0f then .stop .parse_error else moveString yych
  | .p31 => moveString yych
  | .p34 =>
      if isEscape yych then .shift .p31
      else if yych = byte 'u' then .shift .p37
      else .backtrack
  | .p37 => moveHex yych .p38
  | .p38 => moveHex yych .p39
  | .p39 => moveHex yych .p40
  | .p40 => moveHex yych .p31
  | .p30 => .stop .parse_error

/-- Where `m_marker` is set, and what `yyaccept` then says. -/
def marks : Label → Option token_type
  | .p6 | .p20 | .p21 | .p22 | .p27 => some .parse_error
  | .p24 | .p26 | .p41 | .p48 | .p50 => some .value_number
  | _ => none

/-- How many characters a label has `yyfill` called for. -/
def needs : Label → ℕ
  | .p0 => 5
  | .p41 | .p48 => 3
  | .p4 | .p46 | .p31 | .p34 | .p37 | .p38 | .p39 | .p40 => 1
  | _ => 0

/-- The scanner.  A zero byte stands behind the text. -/
def scanner : Scanner Label UInt8 token_type where
  start := .p0
  move := move
  marks := marks
  terminator := 0x00

abbrev LexToken := Token UInt8 token_type

/-! ## Strings -/

/-- How a call of the library can fail: the exceptions it throws, with their
texts, the conversion of a double beyond `int64_t` (`undefined`), a string
read behind its closing quote, and a scanner that comes to no token.  Running
out of fuel belongs to the model alone. -/
inductive Failure where
  | invalid_argument (what : Bytes)
  | out_of_range (what : Bytes)
  | undefined
  | overread
  | stuck
  | outOfFuel
deriving DecidableEq, Repr

def digitValue (c : UInt8) : ℕ :=
  if isDigit c then (c - byte '0').toNat
  else if byte 'a' ≤ c then (c - byte 'a').toNat + 10
  else (c - byte 'A').toNat + 10

/-- The number digits stand for. -/
def digitsValue (base : ℕ) (digits : Bytes) : ℕ :=
  digits.foldl (fun value c => base * value + digitValue c) 0

/-- `strtoul` of hexadecimal digits. -/
def strtoul (digits : Bytes) : ℕ :=
  digitsValue 16 digits

def utf8 (codepoint : ℕ) : Except Failure Bytes :=
  if codepoint < 0x80 then
    .ok [UInt8.ofNat codepoint]
  else if codepoint ≤ 0x7ff then
    .ok [UInt8.ofNat (0xc0 ||| ((codepoint >>> 6) &&& 0x1f)),
      UInt8.ofNat (0x80 ||| (codepoint &&& 0x3f))]
  else if codepoint ≤ 0xffff then
    .ok [UInt8.ofNat (0xe0 ||| ((codepoint >>> 12) &&& 0x0f)),
      UInt8.ofNat (0x80 ||| ((codepoint >>> 6) &&& 0x3f)),
      UInt8.ofNat (0x80 ||| (codepoint &&& 0x3f))]
  else if codepoint ≤ 0x10ffff then
    .ok [UInt8.ofNat (0xf0 ||| ((codepoint >>> 18) &&& 0x07)),
      UInt8.ofNat (0x80 ||| ((codepoint >>> 12) &&& 0x3f)),
      UInt8.ofNat (0x80 ||| ((codepoint >>> 6) &&& 0x3f)),
      UInt8.ofNat (0x80 ||| (codepoint &&& 0x3f))]
  else
    .error (.out_of_range (ascii "code points above 0x10FFFF are invalid"))

def isHighSurrogate (codepoint : ℕ) : Bool :=
  0xd800 ≤ codepoint ∧ codepoint ≤ 0xdbff

def to_unicode (codepoint1 codepoint2 : ℕ) : Except Failure Bytes :=
  if isHighSurrogate codepoint1 then
    if 0xdc00 ≤ codepoint2 ∧ codepoint2 ≤ 0xdfff then
      utf8 ((codepoint1 <<< 10) + codepoint2 - 0x35fdc00)
    else
      .error (.invalid_argument (ascii "missing or wrong low surrogate"))
  else
    utf8 codepoint1

/-- What an escape other than `u` stands for. -/
def simpleEscape (c : UInt8) : Bytes :=
  if c = byte 't' then [0x09]
  else if c = byte 'b' then [0x08]
  else if c = byte 'f' then [0x0c]
  else if c = byte 'n' then [0x0a]
  else if c = byte 'r' then [0x0d]
  else if c = byte '\\' then [byte '\\']
  else if c = byte '/' then [byte '/']
  else if c = byte '"' then [byte '"']
  else []

/-- The loop of `get_string`. -/
def unescape : Bytes → Except Failure Bytes
  | [] => .ok []
  | [c] => if c = byte '\\' then .error .overread else .ok [c]
  | c :: e :: rest =>
      if c ≠ byte '\\' then
        (unescape (e :: rest)).map (c :: ·)
      else if e ≠ byte 'u' then
        (unescape rest).map (simpleEscape e ++ ·)
      else
        match rest with
        | h1 :: h2 :: h3 :: h4 :: rest =>
            let codepoint := strtoul [h1, h2, h3, h4]
            if isHighSurrogate codepoint then
              match rest with
              | b :: u :: g1 :: g2 :: g3 :: g4 :: rest =>
                  if b = byte '\\' ∧ u = byte 'u' then do
                    let chars ← to_unicode codepoint (strtoul [g1, g2, g3, g4])
                    (unescape rest).map (chars ++ ·)
                  else
                    .error (.invalid_argument (ascii "missing low surrogate"))
              | _ => .error (.invalid_argument (ascii "missing low surrogate"))
            else do
              let chars ← to_unicode codepoint 0
              (unescape rest).map (chars ++ ·)
        | _ => .error .overread

/-- `get_string`: what stands between the quotes. -/
def get_string (token : LexToken) : Except Failure Bytes :=
  unescape token.text.tail.dropLast

/-! ## Numbers -/

/-- The exponent behind its letter, when there is one. -/
def exponentPart (text : Bytes) : Option (ℤ × Bytes) :=
  let negative := text.head? = some (byte '-')
  let digits :=
    if negative ∨ text.head? = some (byte '+') then text.tail else text
  if digits.takeWhile isDigit = [] then none
  else
    let value : ℤ := digitsValue 10 (digits.takeWhile isDigit)
    some (if negative then -value else value, digits.dropWhile isDigit)

/-- Digits with a point at the start of a text, and what follows them. -/
def mantissa (base : ℕ) (inDigits : UInt8 → Bool) (text : Bytes) :
    Option (ℚ≥0 × Bytes) :=
  let whole := text.takeWhile inDigits
  match text.dropWhile inDigits with
  | c :: rest =>
      if c = byte '.' then
        let fraction := rest.takeWhile inDigits
        if whole = [] ∧ fraction = [] then none
        else
          some (digitsValue base (whole ++ fraction) / base ^ fraction.length,
            rest.dropWhile inDigits)
      else if whole = [] then none
      else some (digitsValue base whole, c :: rest)
  | [] => if whole = [] then none else some (digitsValue base whole, [])

/-- An exponent of `radix` behind the letter `e`. -/
def scale (radix : ℕ) (e : Char) (value : ℚ≥0 × Bytes) : ℚ≥0 × Bytes :=
  match value.2 with
  | c :: rest =>
      if c = byte e ∨ c = byte e.toUpper then
        match exponentPart rest with
        | some (exponent, rest) => (value.1 * radix ^ exponent, rest)
        | none => value
      else value
  | [] => value

/-- The longest numeral at the start of a text, and what follows it. -/
def numeral (base : ℕ) (inDigits : UInt8 → Bool) (radix : ℕ) (e : Char)
    (text : Bytes) : Option (ℚ≥0 × Bytes) :=
  (mantissa base inDigits text).map (scale radix e)

/-- A numeral with hexadecimal digits behind `0x`. -/
def hexadecimal (text : Bytes) : Option (ℚ≥0 × Bytes) :=
  match text with
  | zero :: x :: rest =>
      if zero = byte '0' ∧ (x = byte 'x' ∨ x = byte 'X') then
        numeral 16 isHexDigit 2 'p' rest
      else none
  | _ => none

/-- `strtod` of a text that starts as a number token does: the number and what
follows it. -/
def strtod (text : Bytes) : Double × Bytes :=
  let negative : Bool := text.head? = some (byte '-')
  let digits := if negative then text.tail else text
  match hexadecimal digits <|> numeral 10 isDigit 10 'e' digits with
  | some (value, rest) => (Double.round negative value, rest)
  | none => (Double.finite false 0, text)

/-- `get_number`: NaN when the number does not end where the token does. -/
def get_number (token : LexToken) (following : Bytes) : Double :=
  let read := strtod (token.text ++ following)
  if read.2.length = following.length then read.1 else .nan

/-- The end of the branch for numbers: an integer when no precision is lost.
The conversion to `int64_t` is undefined for other doubles. -/
def numberValue (x : Double) : Except Failure BasicJson :=
  match x with
  | .finite negative q =>
      let int_val : ℤ := if negative then -⌊q⌋₊ else ⌊q⌋₊
      if int_val < -2 ^ 63 ∨ 2 ^ 63 ≤ int_val then .error .undefined
      else if (⌊q⌋₊ : ℚ≥0) = q ∧ ¬(negative ∧ q = 0) then
        .ok (.number_integer int_val)
      else
        .ok (.number_float x)
  | _ => .error .undefined

/-! ## The two sources -/

/-- A lexer: the next token, and what the buffer holds behind the cursor. -/
structure Lexer (σ : Type) where
  scan : σ → Option (LexToken × σ)
  following : σ → Bytes

/-- A lexer on a string. -/
def stringLexer : Lexer Bytes where
  scan text := scanner.scan scanner.fresh text
  following text := text

/-- A lexer on a stream.  Each token first has the buffer filled. -/
def streamLexer : Lexer (Scanner.Buffer UInt8) where
  scan b := scanner.scanBuffer 0x0a needs scanner.fresh
    (b.request 0x0a (needs scanner.start))
  following b := b.ahead

end Rc2Compute.Format
