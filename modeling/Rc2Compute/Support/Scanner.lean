import Mathlib.Data.List.Basic
import Mathlib.Order.Basic

/-!
# Scanners with a marker

A scanner is an automaton that reads a text one character at a time, may
remember a place to return to, and in the end gives a token.  It runs on a
text with a terminator behind it, or on a buffer that is filled line by line
from a stream.  When the states at which the buffer is filled lie close enough
together, both runs give the same tokens.
-/

namespace Rc2Compute

/-- What a scanner does with the character under its cursor: `shift`, `accept`
and `skip` take it, the others leave it where it is. -/
inductive Move (L T : Type) where
  | shift (next : L)
  | accept (kind : T)
  | stop (kind : T)
  | backtrack
  | skip
  | restart
deriving DecidableEq, Repr

/-- An automaton.  Entering a state may set the marker, with the token to give
when the cursor returns there. -/
structure Scanner (L α T : Type) where
  start : L
  move : L → α → Move L T
  marks : L → Option T
  terminator : α

structure Token (α T : Type) where
  kind : T
  text : List α
deriving DecidableEq, Repr

namespace Scanner

variable {L α T : Type}

/-- The state, the characters read since the token began, and the marker: the
token to give there and how many characters had been read. -/
structure Cursor (L α T : Type) where
  label : L
  read : List α
  marker : Option (T × ℕ)

/-- What one character leads to: another cursor, or a token with the
characters that go back in front of the text. -/
inductive Step (L α T : Type) where
  | go (next : Cursor L α T)
  | give (token : Token α T) (back : List α)
  | stuck

variable (S : Scanner L α T)

/-- The cursor at the start of a token. -/
def fresh : Cursor L α T where
  label := S.start
  read := []
  marker := none

def enter (l : L) (read : List α) (marker : Option (T × ℕ)) :
    Cursor L α T where
  label := l
  read := read
  marker :=
    match S.marks l with
    | some kind => some (kind, read.length)
    | none => marker

/-- The cursor that looks at a character: before a restart, a fresh one. -/
def settle (c : Cursor L α T) (x : α) : Cursor L α T :=
  match S.move c.label x with
  | .restart => S.fresh
  | _ => c

def step (c : Cursor L α T) (x : α) : Step L α T :=
  match S.move c.label x with
  | .shift l => .go (S.enter l (c.read ++ [x]) c.marker)
  | .accept kind => .give ⟨kind, c.read ++ [x]⟩ []
  | .stop kind => .give ⟨kind, c.read⟩ [x]
  | .backtrack =>
      match c.marker with
      | some (kind, k) => .give ⟨kind, c.read.take k⟩ (c.read.drop k ++ [x])
      | none => .stuck
  | .skip => .go S.fresh
  | .restart => .stuck

/-! ## A whole text -/

/-- The next token of a text and what follows it.  Going on behind the
terminator is undefined. -/
def scan (c : Cursor L α T) : List α → Option (Token α T × List α)
  | [] =>
      match S.step (S.settle c S.terminator) S.terminator with
      | .give token back => some (token, back.dropLast)
      | _ => none
  | x :: rest =>
      match S.step (S.settle c x) x with
      | .go next => scan next rest
      | .give token back => some (token, back ++ rest)
      | .stuck => none

/-! ## A buffered stream -/

/-- The buffer from the cursor on, by how much its limit lies before its end,
and what the stream still holds, which is `none` once reading has failed. -/
structure Buffer (α : Type) where
  ahead : List α
  slack : ℕ
  unread : Option (List α)

namespace Buffer

variable [DecidableEq α] (newline : α)

/-- The first line and what follows its end. -/
def getline (text : List α) : List α × Option (List α) :=
  (text.takeWhile (· ≠ newline),
    match text.dropWhile (· ≠ newline) with
    | _ :: rest => some rest
    | [] => if text = [] then none else some [])

/-- A buffer with the first line of a text. -/
def ofText (text : List α) : Buffer α where
  ahead := (getline newline text).1
  slack := 0
  unread := (getline newline text).2

/-- The next line is appended behind a line end. -/
def fill (b : Buffer α) : Buffer α :=
  match b.unread with
  | none => b
  | some rest =>
      { ahead := b.ahead ++ newline :: (getline newline rest).1
        slack := 1
        unread := (getline newline rest).2 }

/-- Fill the buffer when it holds fewer than `n` characters. -/
def request (n : ℕ) (b : Buffer α) : Buffer α :=
  if b.ahead.length - b.slack < n then b.fill newline else b

/-- A text with a line end behind its last line. -/
def closeLine (text : List α) : List α :=
  if text = [] ∨ text.getLast? = some newline then text
  else text ++ [newline]

/-- What filling the buffer will still append. -/
def pending (b : Buffer α) : List α :=
  match b.unread with
  | none => []
  | some rest => newline :: closeLine newline rest

/-- Everything the cursor has before it. -/
def text (b : Buffer α) : List α :=
  b.ahead ++ b.pending newline

/-- What `getline` has read and what is still to come make up the text. -/
theorem getline_text (text : List α) :
    (getline newline text).1 ++
        (pending newline ⟨[], 0, (getline newline text).2⟩) =
      closeLine newline text := by
  have hsplit := List.takeWhile_append_dropWhile (p := (· ≠ newline)) (l := text)
  cases hdrop : text.dropWhile (· ≠ newline) with
  | cons c rest =>
      have hc : c = newline := by
        have := List.head?_dropWhile_not (· ≠ newline) text
        rw [hdrop] at this
        simpa using this
      subst hc
      rw [hdrop] at hsplit
      have hne : text ≠ [] := by
        rintro rfl
        simp at hdrop
      simp only [getline, hdrop, pending]
      rw [closeLine, closeLine]
      by_cases hrest : rest = []
      · subst hrest
        rw [if_pos (Or.inl rfl), if_pos, hsplit]
        exact Or.inr (by rw [← hsplit]; simp)
      · have hlast : text.getLast? = rest.getLast? := by
          rw [← hsplit, List.getLast?_append, List.getLast?_cons,
            List.getLast?_eq_some_getLast hrest]
          simp
        simp only [hrest, hne, false_or, hlast]
        split
        · exact hsplit
        · rw [← List.cons_append, ← List.append_assoc, hsplit]
  | nil =>
      rw [hdrop, List.append_nil] at hsplit
      simp only [getline, hdrop, pending, hsplit]
      by_cases htext : text = []
      · simp [htext, closeLine]
      · have hlast : text.getLast? ≠ some newline := by
          intro h
          have hmem := List.mem_of_getLast? h
          rw [← hsplit] at hmem
          simpa using List.all_eq_true.mp List.all_takeWhile _ hmem
        simp [htext, hlast, closeLine]

theorem text_ofText (text : List α) :
    (ofText newline text).text newline = closeLine newline text :=
  getline_text newline text

theorem text_fill (b : Buffer α) :
    (b.fill newline).text newline = b.text newline := by
  obtain ⟨ahead, slack, unread⟩ := b
  cases unread with
  | none => rfl
  | some rest =>
      have h := getline_text newline rest
      simp only [fill, text, pending, List.append_assoc, List.cons_append] at h ⊢
      rw [← h]

theorem text_request (n : ℕ) (b : Buffer α) :
    (b.request newline n).text newline = b.text newline := by
  rw [request]
  split
  · exact text_fill newline b
  · rfl

/-- The character under the cursor. -/
def head (terminator : α) (b : Buffer α) : α :=
  b.ahead.headD terminator

end Buffer

section buffered

variable [DecidableEq α] (newline : α) (needs : L → ℕ)

/-- The cursor and the buffer for the character the cursor looks at.  A fresh
cursor has the buffer filled first. -/
def look (c : Cursor L α T) (b : Buffer α) : Cursor L α T × Buffer α :=
  match S.move c.label (b.head S.terminator) with
  | .restart => (S.fresh, b.request newline (needs S.start))
  | _ => (c, b)

theorem text_look (c : Cursor L α T) (b : Buffer α) :
    (S.look newline needs c b).2.text newline = b.text newline := by
  rw [look]
  split
  · exact Buffer.text_request newline _ b
  · rfl

/-- The next token of a buffered text, and the buffer behind it.  `needs` is
how many characters entering a state asks the buffer for. -/
def scanBuffer (c : Cursor L α T) (b : Buffer α) :
    Option (Token α T × Buffer α) :=
  let c' := (S.look newline needs c b).1
  let b' := (S.look newline needs c b).2
  match _h : b'.ahead with
  | [] =>
      match S.step c' S.terminator with
      | .give token back => some (token, { b' with ahead := back.dropLast })
      | _ => none
  | x :: rest =>
      match S.step c' x with
      | .go next =>
          scanBuffer next
            (({ b' with ahead := rest } : Buffer α).request newline
              (needs next.label))
      | .give token back => some (token, { b' with ahead := back ++ rest })
      | .stuck => none
termination_by (b.text newline).length
decreasing_by
  rw [Buffer.text_request, ← S.text_look newline needs c b]
  simp [Buffer.text, Buffer.pending, b', _h]

/-- How far the cursor may go from a state before the buffer is filled again.
Between two fillings the cursor does not go past a line end. -/
structure Padded (reach : L → ℕ) : Prop where
  pos : ∀ l, 1 ≤ reach l
  start : 1 ≤ needs S.start
  checked : ∀ l, 1 ≤ needs l → reach l ≤ needs l
  unchecked : ∀ l x l', S.move l x = .shift l' → needs l' = 0 →
    x ≠ newline ∧ reach l' < reach l

/-- Reading from a state does not run out of the buffer before the stream is
at its end. -/
def Ready (reach : L → ℕ) (l : L) (b : Buffer α) : Prop :=
  b.unread = none ∨ reach l ≤ b.ahead.length ∨ newline ∈ b.ahead

variable {S newline needs} {reach : L → ℕ}

theorem Ready.text_eq_nil {l : L} {b : Buffer α}
    (h : Ready newline reach l b) (hpos : 1 ≤ reach l) (hnil : b.ahead = []) :
    b.text newline = [] := by
  rcases h with hnone | hle | hmem
  · simp [Buffer.text, Buffer.pending, hnil, hnone]
  · rw [hnil, List.length_nil] at hle
    omega
  · rw [hnil] at hmem
    cases hmem

theorem Ready.head_eq {l : L} {b : Buffer α} (h : Ready newline reach l b)
    (hpos : 1 ≤ reach l) (terminator : α) :
    b.head terminator = (b.text newline).headD terminator := by
  cases hahead : b.ahead with
  | nil => rw [h.text_eq_nil hpos hahead, Buffer.head, hahead]
  | cons x rest => simp [Buffer.head, Buffer.text, hahead]

/-- A buffer that has been asked for enough is ready. -/
theorem Padded.ready_request (hpad : S.Padded newline needs reach) {l : L}
    (hneeds : 1 ≤ needs l) (b : Buffer α) :
    Ready newline reach l (b.request newline (needs l)) := by
  rw [Buffer.request]
  split
  · rw [Buffer.fill]
    split
    next hnone => exact Or.inl hnone
    next => exact Or.inr (Or.inr (by simp))
  next hlen =>
    have := hpad.checked l hneeds
    exact Or.inr (Or.inl (by omega))

/-- A character taken from a ready buffer leaves it ready for the next
state. -/
theorem Padded.ready_go (hpad : S.Padded newline needs reach)
    {c next : Cursor L α T} {b : Buffer α} {x : α} {rest : List α}
    (hready : Ready newline reach c.label b) (hahead : b.ahead = x :: rest)
    (hstep : S.step c x = .go next) :
    Ready newline reach next.label
      (({ b with ahead := rest } : Buffer α).request newline
        (needs next.label)) := by
  by_cases hneeds : 1 ≤ needs next.label
  · exact hpad.ready_request hneeds _
  · have hmove : S.move c.label x = .shift next.label := by
      rw [step] at hstep
      split at hstep
      next l hmove =>
        cases hstep
        exact hmove
      next => cases hstep
      next => cases hstep
      next =>
        split at hstep
        · cases hstep
        · cases hstep
      next =>
        cases hstep
        exact absurd hpad.start hneeds
      next => cases hstep
    have hzero : needs next.label = 0 := by omega
    obtain ⟨hne, hlt⟩ := hpad.unchecked _ _ _ hmove hzero
    rw [hzero, Buffer.request, if_neg (Nat.not_lt_zero _)]
    rcases hready with hnone | hle | hmem
    · exact Or.inl hnone
    · rw [hahead, List.length_cons] at hle
      refine Or.inr (Or.inl ?_)
      show reach next.label ≤ rest.length
      omega
    · rw [hahead, List.mem_cons] at hmem
      exact Or.inr (Or.inr (hmem.resolve_left (Ne.symm hne)))

/-- What the cursor looks at, and with which cursor, is the same in the buffer
and in the whole text. -/
theorem Padded.look_spec (hpad : S.Padded newline needs reach)
    {c : Cursor L α T} {b : Buffer α}
    (hready : Ready newline reach c.label b) :
    (S.look newline needs c b).1 =
        S.settle c ((b.text newline).headD S.terminator) ∧
      Ready newline reach (S.look newline needs c b).1.label
        (S.look newline needs c b).2 := by
  rw [settle, ← hready.head_eq (hpad.pos _), look]
  split
  · exact ⟨rfl, hpad.ready_request hpad.start b⟩
  · exact ⟨rfl, hready⟩

/-- Scanning the buffer gives the token of the whole text and leaves what
follows it. -/
theorem Padded.scanBuffer_eq (hpad : S.Padded newline needs reach)
    (c : Cursor L α T) (b : Buffer α)
    (hready : Ready newline reach c.label b) :
    (S.scanBuffer newline needs c b).map
        (fun r => (r.1, r.2.text newline)) =
      S.scan c (b.text newline) := by
  induction hn : (b.text newline).length using Nat.strongRecOn
    generalizing c b with
  | ind n ih =>
      obtain ⟨hcursor, hready'⟩ := hpad.look_spec hready
      have htext := S.text_look newline needs c b
      rw [scanBuffer]
      generalize S.look newline needs c b = looked at hcursor hready' htext ⊢
      obtain ⟨c', b'⟩ := looked
      dsimp only at hcursor hready' htext ⊢
      rw [← htext] at hcursor hn ⊢
      split
      next hahead =>
        have hnil := hready'.text_eq_nil (hpad.pos _) hahead
        rw [hnil] at hcursor ⊢
        rw [List.headD_nil] at hcursor
        rw [scan, ← hcursor]
        have hpending : b'.pending newline = [] := by
          rw [Buffer.text, hahead, List.nil_append] at hnil
          exact hnil
        cases S.step c' S.terminator with
        | give token back =>
            show some (token, back.dropLast ++ b'.pending newline) = _
            rw [hpending, List.append_nil]
        | go next => rfl
        | stuck => rfl
      next x rest hahead =>
        have hcons : b'.text newline = x :: (rest ++ b'.pending newline) := by
          rw [Buffer.text, hahead, List.cons_append]
        rw [hcons] at hcursor hn ⊢
        rw [List.headD_cons] at hcursor
        rw [scan, ← hcursor]
        cases hstep : S.step c' x with
        | give token back =>
            show some (token, (back ++ rest) ++ b'.pending newline) = _
            rw [List.append_assoc]
        | go next =>
            have hnext := hpad.ready_go hready' hahead hstep
            have hrest := Buffer.text_request newline (needs next.label)
              ({ b' with ahead := rest } : Buffer α)
            have hlen : (rest ++ b'.pending newline).length < n := by
              rw [← hn]
              exact Nat.lt_succ_self _
            have heq : ({ b' with ahead := rest } : Buffer α).text newline =
                rest ++ b'.pending newline := rfl
            have := ih _ hlen next _ hnext (by rw [hrest, heq])
            rw [hrest, heq] at this
            exact this
        | stuck => rfl

end buffered

/-! ## A line end behind the text -/

/-- The newline only separates tokens: in front of a token it leads to a blank
state, and elsewhere it is treated as the terminator is. -/
structure Separates (newline : α) (blank : L → Prop) : Prop where
  again : ∀ l, l = S.start ∨ blank l →
    ∃ l', blank l' ∧ S.move l newline = .shift l'
  restart : ∀ l, blank l → S.move l S.terminator = .restart
  accept : ∃ kind, S.move S.start S.terminator = .accept kind
  other : ∀ l, l ≠ S.start → ¬blank l →
    S.move l newline = S.move l S.terminator ∧
      (S.move l newline = .backtrack ∨ ∃ kind, S.move l newline = .stop kind)
  entered : ∀ l x l', S.move l x = .shift l' → l' ≠ S.start

/-- A cursor in the starting state has read nothing. -/
def Begun (c : Cursor L α T) : Prop :=
  c.label = S.start → c.read = []

variable {S} {newline : α} {blank : L → Prop}

theorem Separates.begun_go (h : S.Separates newline blank)
    {c next : Cursor L α T} {x : α} (hstep : S.step c x = .go next) :
    S.Begun next := by
  rw [step] at hstep
  split at hstep
  next l hmove =>
    cases hstep
    exact fun hl => absurd hl (h.entered _ _ _ hmove)
  next => cases hstep
  next => cases hstep
  next =>
    split at hstep
    · cases hstep
    · cases hstep
  next =>
    cases hstep
    exact fun _ => rfl
  next => cases hstep

/-- Between tokens the end of the text is the next token, with or without a
line end in front of it. -/
theorem Separates.scan_blank (h : S.Separates newline blank)
    {c : Cursor L α T} (hc : S.Begun c)
    (hlabel : c.label = S.start ∨ blank c.label) :
    ∃ token, S.scan c [] = some (token, []) ∧
      S.scan c [newline] = some (token, []) := by
  obtain ⟨kind, hkind⟩ := h.accept
  have hnil : ∀ c' : Cursor L α T, S.Begun c' →
      c'.label = S.start ∨ blank c'.label →
      S.scan c' [] = some (⟨kind, [S.terminator]⟩, []) := by
    rintro c' hbegun (hstart | hblank)
    · rw [scan, settle, hstart, hkind]
      simp [step, hstart, hkind, hbegun hstart]
    · rw [scan, settle, h.restart _ hblank]
      simp [step, fresh, hkind]
  refine ⟨_, hnil c hc hlabel, ?_⟩
  obtain ⟨l, hblank, hmove⟩ := h.again c.label hlabel
  rw [scan, settle, hmove]
  simp only [step, hmove]
  exact hnil _ (fun hl => absurd hl (h.entered _ _ _ hmove)) (Or.inr hblank)

/-- A line end behind the text does not change its tokens. -/
theorem Separates.scan_append (h : S.Separates newline blank)
    {c : Cursor L α T} (hc : S.Begun c) {text : List α}
    {token : Token α T} {rest : List α}
    (hscan : S.scan c text = some (token, rest)) :
    ∃ tail, (tail = [] ∨ tail = [newline]) ∧
      S.scan c (text ++ [newline]) = some (token, rest ++ tail) := by
  induction text generalizing c with
  | nil =>
      by_cases hlabel : c.label = S.start ∨ blank c.label
      · obtain ⟨token', hnil, hline⟩ := h.scan_blank hc hlabel
        rw [hnil] at hscan
        cases hscan
        exact ⟨[], Or.inl rfl, hline⟩
      · rw [not_or] at hlabel
        obtain ⟨heq, hmove⟩ := h.other c.label hlabel.1 hlabel.2
        -- the same characters go back, and then the one looked at
        refine ⟨[newline], Or.inr rfl, ?_⟩
        rw [List.nil_append]
        rcases hmove with hmove | ⟨kind, hmove⟩
        · rw [hmove] at heq
          simp only [scan, settle, step, hmove, ← heq] at hscan ⊢
          cases hmarker : c.marker with
          | none =>
              rw [hmarker] at hscan
              cases hscan
          | some marker =>
              rw [hmarker] at hscan
              simp at hscan ⊢
              simp [← hscan.1, ← hscan.2]
        · rw [hmove] at heq
          simp only [scan, settle, step, hmove, ← heq] at hscan ⊢
          simp at hscan ⊢
          simp [← hscan.1, ← hscan.2]
  | cons x text ih =>
      rw [List.cons_append]
      rw [scan] at hscan ⊢
      cases hstep : S.step (S.settle c x) x with
      | give token' back =>
          rw [hstep] at hscan
          cases hscan
          exact ⟨[newline], Or.inr rfl, by simp⟩
      | go next =>
          rw [hstep] at hscan
          exact ih (h.begun_go hstep) hscan
      | stuck =>
          rw [hstep] at hscan
          cases hscan

/-! ## Invariants -/

variable (S)

/-- What holds for the cursors of a run, and from this for the token given. -/
structure Maintains (inv : Cursor L α T → Prop) (post : Token α T → Prop) :
    Prop where
  fresh : inv S.fresh
  go : ∀ c x next, inv c → S.step c x = .go next → inv next
  give : ∀ c x token back, inv c → S.step c x = .give token back → post token

variable {S}

theorem Maintains.scan {inv : Cursor L α T → Prop}
    {post : Token α T → Prop} (h : S.Maintains inv post)
    {c : Cursor L α T} (hc : inv c) {text rest : List α}
    {token : Token α T} (hscan : S.scan c text = some (token, rest)) :
    post token := by
  have hsettle : ∀ c x, inv c → inv (S.settle c x) := by
    intro c x hc
    rw [settle]
    split
    · exact h.fresh
    · exact hc
  induction text generalizing c with
  | nil =>
      rw [Scanner.scan] at hscan
      split at hscan
      next token' back hstep =>
        cases hscan
        exact h.give _ _ _ _ (hsettle c _ hc) hstep
      next => cases hscan
  | cons x text ih =>
      rw [Scanner.scan] at hscan
      split at hscan
      next next hstep =>
        exact ih (h.go _ _ _ (hsettle c x hc) hstep) hscan
      next token' back hstep =>
        cases hscan
        exact h.give _ _ _ _ (hsettle c x hc) hstep
      next => cases hscan

/-! ## Every text has a next token -/

variable (S)

/-- The states of `armed` are entered with the marker set, and only they go
back to it.  The starting state takes every character, and no state goes on
behind the terminator. -/
structure Guards (armed : L → Prop) : Prop where
  begins : ∀ x, (∃ l, S.move S.start x = .shift l) ∨
    ∃ kind, S.move S.start x = .accept kind
  start : ¬armed S.start
  entered : ∀ l x l', S.move l x = .shift l' → l' ≠ S.start
  back : ∀ l x, S.move l x = .backtrack → armed l
  armed : ∀ l x l', S.move l x = .shift l' → armed l' →
    S.marks l' ≠ none ∨ armed l
  ends : ∀ l, S.move l S.terminator ≠ .skip ∧
    ∀ l', S.move l S.terminator ≠ .shift l'

/-- A cursor as a run reaches it: it has read something unless it is at the
start, and the marker lies behind the start. -/
structure Reached (armed : L → Prop) (c : Cursor L α T) : Prop where
  begun : S.Begun c
  moved : c.label ≠ S.start → c.read ≠ []
  marker : ∀ kind k, c.marker = some (kind, k) → 1 ≤ k ∧ k ≤ c.read.length
  armed : armed c.label → c.marker ≠ none

variable {S} {armed : L → Prop}

theorem Guards.reached_fresh (h : S.Guards armed) :
    S.Reached armed S.fresh where
  begun _ := rfl
  moved hl := absurd rfl hl
  marker _ _ hk := nomatch hk
  armed hl := absurd hl h.start

theorem Guards.reached_settle (h : S.Guards armed) {c : Cursor L α T}
    (hc : S.Reached armed c) (x : α) : S.Reached armed (S.settle c x) := by
  rw [settle]
  split
  · exact h.reached_fresh
  · exact hc

theorem Guards.reached_go (h : S.Guards armed) {c next : Cursor L α T}
    (hc : S.Reached armed c) {x : α} (hstep : S.step c x = .go next) :
    S.Reached armed next := by
  rw [step] at hstep
  split at hstep
  next l hmove =>
    cases hstep
    have hl := h.entered _ _ _ hmove
    refine ⟨fun heq => absurd heq hl, fun _ => by simp [enter], ?_, ?_⟩
    · intro kind k hk
      rw [enter] at hk ⊢
      dsimp only at hk ⊢
      rw [List.length_append, List.length_singleton] at hk ⊢
      split at hk
      · cases hk
        omega
      · have := hc.marker kind k hk
        omega
    · intro harmed
      rw [enter]
      dsimp only
      split
      · exact Option.some_ne_none _
      next hnone =>
        rcases h.armed _ _ _ hmove harmed with hmarks | hprev
        · exact absurd hnone hmarks
        · exact hc.armed hprev
  next => cases hstep
  next => cases hstep
  next => split at hstep <;> cases hstep
  next =>
    cases hstep
    exact h.reached_fresh
  next => cases hstep

/-- In the step taken the state does not start over. -/
theorem Guards.settle_ne_restart (h : S.Guards armed) (c : Cursor L α T)
    (x : α) : S.move (S.settle c x).label x ≠ .restart := by
  rw [settle]
  split
  next =>
    rw [fresh]
    rcases h.begins x with ⟨l, hl⟩ | ⟨kind, hkind⟩
    · rw [hl]
      exact nofun
    · rw [hkind]
      exact nofun
  next hne => exact hne

/-- A step is never stuck. -/
theorem Guards.step_ne_stuck (h : S.Guards armed) {c : Cursor L α T}
    (hc : S.Reached armed c) {x : α} (hne : S.move c.label x ≠ .restart) :
    S.step c x ≠ .stuck := by
  rw [step]
  split
  next => exact nofun
  next => exact nofun
  next => exact nofun
  next hback =>
    have := hc.armed (h.back _ _ hback)
    split
    next => exact nofun
    next hnone => exact absurd hnone this
  next => exact nofun
  next hrestart => exact absurd hrestart hne

/-- What goes back to the text is less than what has been read and the
character looked at, unless the token ends the text. -/
theorem Guards.back_length (h : S.Guards armed) {c : Cursor L α T}
    (hc : S.Reached armed c) {x : α} {token : Token α T} {back : List α}
    (hstep : S.step c x = .give token back) :
    back.length ≤ c.read.length ∧
      (back = [] → ∃ kind, S.move c.label x = .accept kind ∧
        token = ⟨kind, c.read ++ [x]⟩) := by
  have hstart : S.move c.label x ≠ .restart →
      (∀ kind, S.move c.label x = .stop kind → c.read ≠ []) := by
    intro _ kind hstop
    refine hc.moved fun hl => ?_
    rw [hl] at hstop
    rcases h.begins x with ⟨l, hl⟩ | ⟨kind', hkind⟩
    · rw [hl] at hstop
      cases hstop
    · rw [hkind] at hstop
      cases hstop
  rw [step] at hstep
  split at hstep
  next => cases hstep
  next kind hmove =>
    cases hstep
    exact ⟨Nat.zero_le _, fun _ => ⟨kind, hmove, rfl⟩⟩
  next kind hmove =>
    cases hstep
    have := hstart (by rw [hmove]; exact nofun) kind hmove
    exact ⟨List.length_pos_of_ne_nil this, fun hnil => nomatch hnil⟩
  next =>
    split at hstep
    next kind k hmarker =>
      cases hstep
      have := hc.marker kind k hmarker
      refine ⟨?_, fun hnil => by simp at hnil⟩
      rw [List.length_append, List.length_drop, List.length_singleton]
      omega
    next => cases hstep
  next => cases hstep
  next => cases hstep

theorem settle_read_le (c : Cursor L α T) (x : α) :
    (S.settle c x).read.length ≤ c.read.length := by
  rw [settle]
  split
  · exact Nat.zero_le _
  · exact Nat.le_refl _

theorem go_read_le {c next : Cursor L α T} {x : α}
    (hstep : S.step c x = .go next) :
    next.read.length ≤ c.read.length + 1 := by
  rw [step] at hstep
  split at hstep
  next =>
    cases hstep
    simp [enter]
  next => cases hstep
  next => cases hstep
  next => split at hstep <;> cases hstep
  next =>
    cases hstep
    exact Nat.zero_le _
  next => cases hstep

/-- Every text has a next token.  What follows the token is shorter than what
there was, unless the token is the end of the text. -/
theorem Guards.scan_total (h : S.Guards armed) {c : Cursor L α T}
    (hc : S.Reached armed c) (text : List α) :
    ∃ token rest, S.scan c text = some (token, rest) ∧
      (rest.length < c.read.length + text.length ∨
        S.move S.start S.terminator = .accept token.kind) := by
  induction text generalizing c with
  | nil =>
      have hsettled := h.reached_settle hc S.terminator
      have hstuck := h.step_ne_stuck hsettled
        (h.settle_ne_restart c S.terminator)
      rw [scan]
      cases hstep : S.step (S.settle c S.terminator) S.terminator with
      | stuck => exact absurd hstep hstuck
      | go next =>
          have hends := h.ends (S.settle c S.terminator).label
          rw [step] at hstep
          split at hstep
          next l hmove => exact absurd hmove (hends.2 l)
          next => cases hstep
          next => cases hstep
          next => split at hstep <;> cases hstep
          next hmove => exact absurd hmove hends.1
          next => cases hstep
      | give token back =>
          obtain ⟨hlen, haccept⟩ := h.back_length hsettled hstep
          refine ⟨token, back.dropLast, rfl, ?_⟩
          have hread := settle_read_le (S := S) c S.terminator
          by_cases hnil : back = []
          · obtain ⟨kind, hmove, rfl⟩ := haccept hnil
            rw [hnil, List.dropLast_nil, List.length_nil]
            by_cases hc' : c.read = []
            · right
              have hl : (S.settle c S.terminator).label = S.start := by
                rw [settle]
                split
                · rfl
                · exact not_imp_comm.mp hc.moved (not_not_intro hc')
              rw [← hl]
              exact hmove
            · left
              have := List.length_pos_of_ne_nil hc'
              omega
          · left
            have := List.length_pos_of_ne_nil hnil
            rw [List.length_dropLast, List.length_nil]
            omega
  | cons x text ih =>
      have hsettled := h.reached_settle hc x
      have hread := settle_read_le (S := S) c x
      rw [scan, List.length_cons]
      cases hstep : S.step (S.settle c x) x with
      | stuck =>
          exact absurd hstep
            (h.step_ne_stuck hsettled (h.settle_ne_restart c x))
      | go next =>
          obtain ⟨token, rest, hscan, hrest⟩ :=
            ih (h.reached_go hsettled hstep)
          refine ⟨token, rest, hscan, hrest.imp_left fun hlt => ?_⟩
          have := go_read_le hstep
          omega
      | give token back =>
          have hlen := (h.back_length hsettled hstep).1
          refine ⟨token, back ++ text, rfl, Or.inl ?_⟩
          rw [List.length_append]
          omega

/-! ## Tokens that are shifted to their end -/

variable (S)

/-- The state behind characters that are all shifted. -/
def route (l : L) : List α → Option L
  | [] => some l
  | x :: xs =>
      match S.move l x with
      | .shift l' => route l' xs
      | _ => none

variable {S}

theorem route_cons {l l' : L} {x : α} (h : S.move l x = .shift l')
    (xs : List α) : S.route l (x :: xs) = S.route l' xs := by
  rw [route, h]

theorem route_append {l l' : L} {xs : List α} (h : S.route l xs = some l')
    (ys : List α) : S.route l (xs ++ ys) = S.route l' ys := by
  induction xs generalizing l with
  | nil =>
      cases h
      rfl
  | cons x xs ih =>
      rw [route] at h
      split at h
      next l₁ hmove =>
        rw [List.cons_append, route_cons hmove]
        exact ih h
      next => cases h

/-- A loop at one state. -/
theorem route_loop {l : L} {xs : List α}
    (h : ∀ x ∈ xs, S.move l x = .shift l) : S.route l xs = some l := by
  induction xs with
  | nil => rfl
  | cons x xs ih =>
      rw [route_cons (h x List.mem_cons_self)]
      exact ih fun y hy => h y (List.mem_cons_of_mem _ hy)

/-- The characters shifted have been read and are gone from the text. -/
theorem scan_of_route {c : Cursor L α T} {l : L} {xs : List α}
    (h : S.route c.label xs = some l) :
    ∃ c' : Cursor L α T, c'.label = l ∧ c'.read = c.read ++ xs ∧
      ∀ rest, S.scan c (xs ++ rest) = S.scan c' rest := by
  induction xs generalizing c with
  | nil =>
      cases h
      exact ⟨c, rfl, (List.append_nil _).symm, fun _ => rfl⟩
  | cons x xs ih =>
      rw [route] at h
      split at h
      next l₁ hmove =>
        obtain ⟨c', hl, hread, hscan⟩ :=
          ih (c := S.enter l₁ (c.read ++ [x]) c.marker) h
        refine ⟨c', hl, ?_, fun rest => ?_⟩
        · rw [hread, enter, List.append_assoc]
          rfl
        · rw [List.cons_append, scan, settle, hmove, step, hmove]
          exact hscan rest
      next => cases h

theorem scan_accept {xs : List α} {x : α} {l : L} {kind : T}
    (hroute : S.route S.start xs = some l) (hmove : S.move l x = .accept kind)
    (rest : List α) :
    S.scan S.fresh (xs ++ x :: rest) =
      some (⟨kind, xs ++ [x]⟩, rest) := by
  obtain ⟨c, rfl, hread, hscan⟩ := scan_of_route (c := S.fresh) hroute
  rw [hscan, scan, settle, hmove, step, hmove, hread]
  rfl

/-- A token ends in front of a character that is not part of it, or at the end
of the text. -/
theorem scan_stop {xs rest : List α} {l : L} {kind : T}
    (hroute : S.route S.start xs = some l)
    (hmove : S.move l (rest.headD S.terminator) = .stop kind) :
    S.scan S.fresh (xs ++ rest) = some (⟨kind, xs⟩, rest) := by
  obtain ⟨c, rfl, hread, hscan⟩ := scan_of_route (c := S.fresh) hroute
  rw [hscan]
  cases rest with
  | nil =>
      rw [List.headD_nil] at hmove
      rw [scan, settle, hmove, step, hmove, hread]
      rfl
  | cons x rest =>
      rw [List.headD_cons] at hmove
      rw [scan, settle, hmove, step, hmove, hread]
      rfl

end Scanner

end Rc2Compute
