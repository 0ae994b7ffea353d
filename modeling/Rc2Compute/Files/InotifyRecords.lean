import Rc2Compute.Files.World
import Rc2Compute.Support.Records
import Rc2Compute.Support.Transition
import Mathlib.Data.List.TakeWhile

/-!
# Reading inotify events

The kernel places events whole into the input of a bufferevent.  The handler
reads at most `I_BUF_LEN` bytes at a time and walks over the events it finds
there, and over whatever lies behind them when the last one is cut.  Every
callback makes one read; what it reads while events are ignored is dropped.
-/

namespace Rc2Compute.Files

/-- `NAME_MAX`. -/
def NAME_MAX : ℕ := 255

/-- `sizeof(struct inotify_event)`. -/
def eventHeaderSize : ℕ := 16

def I_BUF_LEN : ℕ := 10 * (eventHeaderSize + NAME_MAX + 1)

/-- The handler looks at the name of a file that is created. -/
def usesName (mask : UInt32) : Bool :=
  mask &&& 0xffff = IN_CREATE ∧ mask &&& IN_ISDIR = 0

/-! ## Events as bytes -/

/-- A 32-bit word as the host lays it out, least significant byte first. -/
def hostWord (value : UInt32) : Bytes :=
  (BigEndian.encode 4 value.toNat).reverse

/-- An event as the kernel writes it.  The name field of a created file holds
the name and at least one zero byte. -/
structure RawEvent where
  wd : UInt32
  mask : UInt32
  cookie : UInt32
  name : Bytes
  fits : name.length < 2 ^ 32
  terminated : usesName mask = true → 0 ∈ name

namespace RawEvent

variable (e : RawEvent)

def bytes : Bytes :=
  hostWord e.wd ++ (hostWord e.mask ++ (hostWord e.cookie ++
    (hostWord (UInt32.ofNat e.name.length) ++ e.name)))

def size : ℕ := eventHeaderSize + e.name.length

/-- The name up to its first zero byte. -/
def fname : Bytes := e.name.takeWhile fun byte => byte ≠ 0

/-- How many bytes of the event the handler looks at: the header, and with a
name the name and the zero byte behind it. -/
def looked : ℕ :=
  if usesName e.mask then eventHeaderSize + e.fname.length + 1
  else eventHeaderSize

end RawEvent

/-! ## What the handler makes of the bytes -/

section

variable (buf : ℕ → UInt8) (p : ℕ)

def wordAt : ℕ :=
  BigEndian.decode [buf (p + 3), buf (p + 2), buf (p + 1), buf p]

/-- `event->wd`. -/
def eventWd : UInt32 := UInt32.ofNat (wordAt buf p)

/-- `event->mask`. -/
def eventMask : UInt32 := UInt32.ofNat (wordAt buf (p + 4))

/-- `event->len`. -/
def eventLen : ℕ := wordAt buf (p + 12)

/-- The C string at `p`. -/
def IsCString (text : Bytes) : Prop :=
  (∀ i < text.length, some (buf (p + i)) = text[i]? ∧ buf (p + i) ≠ 0) ∧
    buf (p + text.length) = 0

/-- The record at `p` is taken for this event. -/
structure Interprets (e : RawEvent) : Prop where
  wd : eventWd buf p = e.wd
  mask : eventMask buf p = e.mask
  name : usesName e.mask = true → IsCString buf (p + eventHeaderSize) e.fname

end

/-! ## The input -/

/-- The events that have been placed so far, and the number of bytes that have
been read. -/
structure InotifyInput where
  placed : List RawEvent
  consumed : ℕ

/-- More events arrive, or the callback reads. -/
inductive InputOp where
  | place (events : List RawEvent)
  | read (ignoring : Bool) (uninitialised : ℕ → UInt8)

namespace InotifyInput

variable (s : InotifyInput)

def stream : Bytes := s.placed.flatMap RawEvent.bytes

/-- What `bufferevent_read` returns. -/
def numRead : ℕ :=
  min I_BUF_LEN (Records.total RawEvent.size s.placed - s.consumed)

def step : InputOp → InotifyInput
  | .place events => { s with placed := s.placed ++ events }
  | .read _ _ => { s with consumed := s.consumed + s.numRead }

/-- The array `buf` after the read. -/
def buf (uninitialised : ℕ → UInt8) (i : ℕ) : UInt8 :=
  (((s.stream.drop s.consumed).take s.numRead)[i]?).getD (uninitialised i)

/-- The offsets at which the loop decodes an event. -/
def decodedAt (uninitialised : ℕ → UInt8) : List ℕ :=
  Records.walk
    (fun p => p + (eventHeaderSize + eventLen (s.buf uninitialised) p))
    s.numRead s.numRead 0

/-- The events that begin among the bytes of this read, with their places in
the stream. -/
def begun : List (ℕ × RawEvent) :=
  (Records.located RawEvent.size 0 s.placed).filter fun entry =>
    s.consumed ≤ entry.1 ∧ entry.1 < s.consumed + s.numRead

/-- The loop decodes exactly the events that begin among the bytes of this
read, in order, and looks at nothing behind these bytes. -/
def ParsedExactly : InputOp → Prop
  | .read false uninitialised =>
      (s.decodedAt uninitialised).map (s.consumed + ·) =
          s.begun.map Prod.fst ∧
        ∀ entry ∈ s.begun,
          entry.1 + entry.2.looked ≤ s.consumed + s.numRead ∧
          Interprets (s.buf uninitialised) (entry.1 - s.consumed) entry.2
  | _ => True

/-- The read begins with an event, and does not end where the handler is still
looking at one. -/
def Aligned : InputOp → Prop
  | .read false _ =>
      (0 < s.numRead →
        s.consumed ∈ (Records.located RawEvent.size 0 s.placed).map Prod.fst) ∧
      ∀ entry ∈ s.begun, entry.1 + entry.2.looked ≤ s.consumed + s.numRead
  | _ => True

end InotifyInput

/-! ## Words and names in memory -/

@[simp] theorem hostWord_length (value : UInt32) :
    (hostWord value).length = 4 := by
  rw [hostWord, List.length_reverse, BigEndian.encode_length]

/-- A word that lies in memory is read back. -/
theorem wordAt_of_hostWord {buf : ℕ → UInt8} {p : ℕ} {value : UInt32}
    (h : ∀ i < 4, some (buf (p + i)) = (hostWord value)[i]?) :
    wordAt buf p = value.toNat := by
  have hbytes : [buf p, buf (p + 1), buf (p + 2), buf (p + 3)] =
      hostWord value := by
    apply List.ext_getElem?
    intro i
    match i with
    | 0 => exact h 0 (by decide)
    | 1 => exact h 1 (by decide)
    | 2 => exact h 2 (by decide)
    | 3 => exact h 3 (by decide)
    | i + 4 =>
        rw [List.getElem?_eq_none (by simp), List.getElem?_eq_none (by simp)]
  have hreversed := congrArg List.reverse hbytes
  rw [hostWord, List.reverse_reverse] at hreversed
  calc wordAt buf p
      = BigEndian.decode (BigEndian.encode 4 value.toNat) :=
        congrArg BigEndian.decode hreversed
    _ = value.toNat := BigEndian.decode_encode_of_lt value.toNat_lt

/-- Behind the first bytes that are not zero comes a zero byte, if there is
one. -/
theorem getElem?_length_takeWhile {name : Bytes} (h : 0 ∈ name) :
    name[(name.takeWhile (· ≠ 0)).length]? = some 0 := by
  induction name with
  | nil => cases h
  | cons byte name ih =>
      by_cases hbyte : byte = 0
      · simp [hbyte]
      · have hname : 0 ∈ name := by
          rcases List.mem_cons.mp h with h | h
          · exact absurd h.symm hbyte
          · exact h
        rw [List.takeWhile_cons_of_pos (by simpa using hbyte),
          List.length_cons, List.getElem?_cons_succ]
        exact ih hname

/-- A name that lies in memory with a zero byte is read up to the first
one. -/
theorem isCString_takeWhile {buf : ℕ → UInt8} {p : ℕ} {name : Bytes}
    (hzero : 0 ∈ name)
    (h : ∀ i ≤ (name.takeWhile (· ≠ 0)).length,
      some (buf (p + i)) = name[i]?) :
    IsCString buf p (name.takeWhile (· ≠ 0)) := by
  constructor
  · intro i hi
    have htaken : name[i]? = (name.takeWhile (· ≠ 0))[i]? := by
      have hsplit : name.takeWhile (· ≠ 0) ++ name.dropWhile (· ≠ 0) = name :=
        List.takeWhile_append_dropWhile
      rw [← List.getElem?_append_left hi, hsplit]
    have hbyte := h i hi.le
    rw [htaken] at hbyte
    refine ⟨hbyte, ?_⟩
    have hmem : buf (p + i) ∈ name.takeWhile (· ≠ 0) :=
      List.mem_of_getElem? hbyte.symm
    simpa using List.mem_takeWhile_imp hmem
  · have hlast := h _ le_rfl
    rw [getElem?_length_takeWhile hzero] at hlast
    exact Option.some.inj hlast

namespace RawEvent

variable (e : RawEvent)

theorem bytes_length : e.bytes.length = e.size := by
  simp only [bytes, List.length_append, hostWord_length, size, eventHeaderSize]
  omega

theorem size_pos : 0 < e.size :=
  Nat.add_pos_left (by decide) _

/-- The word in front of some bytes, and what lies behind it. -/
theorem getElem?_hostWord_append (value : UInt32) (rest : Bytes) (i : ℕ) :
    (hostWord value ++ rest)[4 + i]? = rest[i]? := by
  rw [List.getElem?_append_right (by simp), hostWord_length,
    Nat.add_sub_cancel_left]

theorem getElem?_name (i : ℕ) :
    e.bytes[eventHeaderSize + i]? = e.name[i]? := by
  have hindex : eventHeaderSize + i = 4 + (4 + (4 + (4 + i))) := by
    rw [eventHeaderSize]
    omega
  rw [hindex, bytes]
  simp only [getElem?_hostWord_append]

/-- The length field is the length of the name. -/
theorem len_toNat : (UInt32.ofNat e.name.length).toNat = e.name.length := by
  rw [UInt32.toNat_ofNat']
  exact Nat.mod_eq_of_lt e.fits

theorem fname_length_lt (h : usesName e.mask = true) :
    e.fname.length < e.name.length := by
  have hzero := getElem?_length_takeWhile (e.terminated h)
  exact (List.getElem?_eq_some_iff.mp hzero).choose

theorem looked_le : e.looked ≤ e.size := by
  rw [looked, size]
  split
  next h =>
    have := e.fname_length_lt h
    omega
  next => omega

theorem header_le_looked : eventHeaderSize ≤ e.looked := by
  rw [looked]
  split
  · omega
  · exact le_rfl

/-- An event is interpreted right if what the handler looks at lies in
memory. -/
theorem interprets {e : RawEvent} {buf : ℕ → UInt8} {p : ℕ}
    (h : ∀ i < e.looked, some (buf (p + i)) = e.bytes[i]?) :
    Interprets buf p e ∧ eventLen buf p = e.name.length := by
  have hlooked := e.header_le_looked
  rw [eventHeaderSize] at hlooked
  have hword : ∀ {offset : ℕ} {value : UInt32}, offset + 4 ≤ 16 →
      (∀ i < 4, e.bytes[offset + i]? = (hostWord value)[i]?) →
      wordAt buf (p + offset) = value.toNat := by
    intro offset value hoffset hvalue
    apply wordAt_of_hostWord
    intro i hi
    rw [Nat.add_assoc, h _ (by omega), hvalue i hi]
  have hfirst : ∀ (value : UInt32) (rest : Bytes), ∀ i < 4,
      (hostWord value ++ rest)[i]? = (hostWord value)[i]? :=
    fun value rest i hi => List.getElem?_append_left (by simpa using hi)
  have hwd : wordAt buf (p + 0) = e.wd.toNat := by
    apply hword (by decide)
    intro i hi
    rw [Nat.zero_add, bytes, hfirst _ _ i hi]
  have hmask : wordAt buf (p + 4) = e.mask.toNat := by
    apply hword (by decide)
    intro i hi
    rw [bytes, getElem?_hostWord_append, hfirst _ _ i hi]
  have hlen : wordAt buf (p + 12) =
      (UInt32.ofNat e.name.length).toNat := by
    apply hword (by decide)
    intro i hi
    have hindex : 12 + i = 4 + (4 + (4 + i)) := by omega
    rw [bytes, hindex]
    simp only [getElem?_hostWord_append]
    exact hfirst _ _ i hi
  refine ⟨⟨?_, ?_, ?_⟩, hlen.trans e.len_toNat⟩
  · rw [eventWd, ← Nat.add_zero p, hwd, UInt32.ofNat_toNat]
  · rw [eventMask, hmask, UInt32.ofNat_toNat]
  · intro hname
    apply isCString_takeWhile (e.terminated hname)
    intro i hi
    rw [Nat.add_assoc, h _ ?_, getElem?_name]
    rw [looked, if_pos hname, fname]
    omega

end RawEvent

/-! ## One read -/

namespace InotifyInput

variable {s : InotifyInput} {uninitialised : ℕ → UInt8}

/-- The array holds the bytes of an event as far as they have been read. -/
theorem buf_eq {entry : ℕ × RawEvent} (h : entry ∈ s.begun) {i : ℕ}
    (hsize : i < entry.2.size)
    (hread : entry.1 + i < s.consumed + s.numRead) :
    some (s.buf uninitialised (entry.1 - s.consumed + i)) =
      entry.2.bytes[i]? := by
  obtain ⟨start, e⟩ := entry
  obtain ⟨hlocated, hbegun⟩ := List.mem_filter.mp h
  rw [decide_eq_true_eq] at hbegun
  dsimp only at hsize hread hbegun ⊢
  have hbytes : s.stream[start + i]? = e.bytes[i]? :=
    Records.getElem?_of_located (fun e => e.bytes_length.symm) hlocated hsize
  obtain ⟨byte, hbyte⟩ : ∃ byte, e.bytes[i]? = some byte := by
    rw [← e.bytes_length] at hsize
    exact ⟨_, List.getElem?_eq_getElem hsize⟩
  have hindex : s.consumed + (start - s.consumed + i) = start + i := by omega
  rw [buf, List.getElem?_take_of_lt (by omega), List.getElem?_drop, hindex,
    hbytes, hbyte, Option.getD_some]

/-- An event is interpreted right if it is read as far as it is looked at. -/
theorem interprets_begun {entry : ℕ × RawEvent} (h : entry ∈ s.begun)
    (hread : entry.1 + entry.2.looked ≤ s.consumed + s.numRead) :
    Interprets (s.buf uninitialised) (entry.1 - s.consumed) entry.2 ∧
      eventLen (s.buf uninitialised) (entry.1 - s.consumed) =
        entry.2.name.length := by
  apply RawEvent.interprets
  intro i hi
  have hle := entry.2.looked_le
  exact buf_eq h (by omega) (by omega)

/-- From the beginning of an event on, only the events from there on begin
among the bytes read. -/
theorem begun_of_split {before events : List RawEvent}
    (hplaced : s.placed = before ++ events)
    (hconsumed : s.consumed = Records.total RawEvent.size before) :
    s.begun =
      ((Records.located RawEvent.size 0 events).filter fun entry =>
        entry.1 < s.numRead).map
          fun entry => (s.consumed + entry.1, entry.2) := by
  have hearlier : ∀ entry ∈ Records.located RawEvent.size 0 before,
      ¬decide (s.consumed ≤ entry.1 ∧ entry.1 < s.consumed + s.numRead) =
        true := by
    intro entry hentry
    have hbounds := Records.located_bounds hentry
    have hpos := entry.2.size_pos
    rw [decide_eq_true_eq]
    omega
  rw [begun, hplaced, Records.located_append, List.filter_append,
    List.filter_eq_nil_iff.mpr hearlier, List.nil_append, Nat.zero_add,
    ← hconsumed, ← Nat.add_zero s.consumed, Records.located_add,
    List.filter_map]
  congr 1
  apply List.filter_congr
  intro entry _
  simp

/-- From the beginning of an event the loop visits those that begin among the
bytes read. -/
theorem decodedAt_of_aligned
    (hstart : 0 < s.numRead →
      s.consumed ∈ (Records.located RawEvent.size 0 s.placed).map Prod.fst)
    (hread : ∀ entry ∈ s.begun,
      entry.1 + entry.2.looked ≤ s.consumed + s.numRead) :
    (s.decodedAt uninitialised).map (s.consumed + ·) =
      s.begun.map Prod.fst := by
  by_cases hpos : 0 < s.numRead
  · obtain ⟨⟨start, a⟩, hlocated, hconsumed⟩ := List.mem_map.mp (hstart hpos)
    obtain ⟨before, after, hplaced, hbefore⟩ := Records.mem_located hlocated
    obtain rfl : start = s.consumed := hconsumed
    rw [Nat.zero_add] at hbefore
    have hbegun := begun_of_split hplaced hbefore
    rw [hbegun, List.map_map, decodedAt,
      Records.walk_located RawEvent.size_pos, List.map_map]
    · rfl
    · intro offset e he hoffset
      have hentry : (s.consumed + offset, e) ∈ s.begun := by
        rw [hbegun]
        exact List.mem_map.mpr ⟨(offset, e),
          List.mem_filter.mpr ⟨he, decide_eq_true hoffset⟩, rfl⟩
      have hlen : eventLen (s.buf uninitialised)
          (s.consumed + offset - s.consumed) = e.name.length :=
        (interprets_begun hentry (hread _ hentry)).2
      rw [Nat.add_sub_cancel_left] at hlen
      rw [hlen, RawEvent.size]
    · have htotal : Records.total RawEvent.size s.placed =
          s.consumed + Records.total RawEvent.size (a :: after) := by
        rw [hplaced, Records.total_append, hbefore]
      have hle : s.numRead ≤
          Records.total RawEvent.size s.placed - s.consumed :=
        Nat.min_le_right _ _
      omega
    · omega
  · have hnone : s.begun = [] := by
      apply List.filter_eq_nil_iff.mpr
      intro entry _
      rw [decide_eq_true_eq]
      omega
    rw [hnone, decodedAt, Records.walk_of_le (by omega)]
    rfl

/-- A read goes right exactly if it is aligned. -/
theorem parsedExactly_iff (s : InotifyInput) (op : InputOp) :
    s.ParsedExactly op ↔ s.Aligned op := by
  match op with
  | .place events => exact Iff.rfl
  | .read true uninitialised => exact Iff.rfl
  | .read false uninitialised =>
      constructor
      · rintro ⟨hdecoded, hread⟩
        constructor
        · intro hpos
          have hfirst : s.consumed ∈ s.begun.map Prod.fst := by
            rw [← hdecoded]
            exact List.mem_map.mpr
              ⟨0, Records.mem_walk hpos hpos, Nat.add_zero _⟩
          obtain ⟨entry, hentry, hstart⟩ := List.mem_map.mp hfirst
          exact List.mem_map.mpr ⟨entry, List.mem_of_mem_filter hentry, hstart⟩
        · exact fun entry hentry => (hread entry hentry).1
      · rintro ⟨hstart, hread⟩
        constructor
        · exact decodedAt_of_aligned hstart hread
        · intro entry hentry
          have hinside := hread entry hentry
          exact ⟨hinside, (interprets_begun hentry hinside).1⟩

/-! ## Runs -/

/-- Every read made while events are not ignored goes right exactly if every
such read is aligned, however the events arrive and the reads fall. -/
theorem parsedExactly_run_iff (s : InotifyInput) (ops : List InputOp) :
    Transition.Along step ParsedExactly s ops ↔
      Transition.Along step Aligned s ops := by
  simp only [funext₂ fun s op => propext (parsedExactly_iff s op)]

/-- The next byte to be read is the first one of an event, if there is one. -/
def AtEvent (s : InotifyInput) : Prop :=
  s.consumed ≤ Records.total RawEvent.size s.placed ∧
    (s.consumed < Records.total RawEvent.size s.placed →
      s.consumed ∈ (Records.located RawEvent.size 0 s.placed).map Prod.fst)

/-- A read that finds no more than it can take. -/
def Short (s : InotifyInput) : InputOp → Prop
  | .place _ => True
  | .read _ _ => Records.total RawEvent.size s.placed ≤ s.consumed + I_BUF_LEN

theorem AtEvent.step {op : InputOp} (h : s.AtEvent) (hshort : s.Short op) :
    (s.step op).AtEvent := by
  obtain ⟨hle, hbegins⟩ := h
  match op with
  | .place events =>
      simp only [InotifyInput.step, AtEvent, Records.total_append,
        Records.located_append, List.map_append, List.mem_append]
      refine ⟨by omega, fun hlt => ?_⟩
      by_cases hinside : s.consumed < Records.total RawEvent.size s.placed
      · exact Or.inl (hbegins hinside)
      · right
        match events with
        | [] =>
            rw [Records.total_nil] at hlt
            omega
        | first :: events =>
            have hstart : s.consumed =
                0 + Records.total RawEvent.size s.placed := by
              omega
            rw [hstart, Records.located, List.map_cons]
            exact List.mem_cons_self
  | .read _ _ =>
      have hall : s.consumed + s.numRead =
          Records.total RawEvent.size s.placed := by
        rw [Short] at hshort
        rw [numRead]
        omega
      simp only [InotifyInput.step, AtEvent, hall]
      exact ⟨le_rfl, fun hlt => absurd hlt (lt_irrefl _)⟩

theorem AtEvent.aligned {op : InputOp} (h : s.AtEvent)
    (hshort : s.Short op) : s.Aligned op := by
  obtain ⟨hle, hbegins⟩ := h
  match op with
  | .place _ => trivial
  | .read true _ => trivial
  | .read false _ =>
      have hall : s.consumed + s.numRead =
          Records.total RawEvent.size s.placed := by
        rw [Short] at hshort
        rw [numRead]
        omega
      constructor
      · intro hpos
        exact hbegins (by omega)
      · intro entry hentry
        have hbounds :=
          Records.located_bounds (List.mem_of_mem_filter hentry)
        have hlooked := entry.2.looked_le
        omega

/-- While no read finds more than it can take, every read goes right. -/
theorem parsedExactly_of_short {ops : List InputOp} (h : s.AtEvent)
    (hshort : Transition.Along InotifyInput.step Short s ops) :
    Transition.Along InotifyInput.step ParsedExactly s ops :=
  Transition.along_of_invariant (I := AtEvent)
    (fun _ _ h hg => h.step hg)
    (fun _ _ h hg => (parsedExactly_iff _ _).mpr (h.aligned hg)) h hshort

end InotifyInput

/-! ## Eleven long names -/

/-- The event of a new file whose name is 200 bytes long, in a name field of
240 bytes. -/
def longCreate : RawEvent where
  wd := 1
  mask := IN_CREATE
  cookie := 0
  name := List.replicate 200 97 ++ List.replicate 40 0
  fits := by
    rw [List.length_append, List.length_replicate, List.length_replicate]
    decide
  terminated := fun _ =>
    List.mem_append_right _ (List.mem_replicate.mpr ⟨by decide, rfl⟩)

namespace InotifyInput

/-- The eleventh event is cut inside its name. -/
theorem parsedExactly_fails_on_burst :
    ¬∀ ops, Transition.Along step ParsedExactly ⟨[], 0⟩ ops := by
  intro h
  have hsize : longCreate.size = 256 := by
    decide +kernel
  have hlooked : longCreate.looked = 217 := by
    decide +kernel
  let s : InotifyInput := ⟨List.replicate 11 longCreate, 0⟩
  have hread : s.ParsedExactly (.read false fun _ => 0) :=
    (h [.place (List.replicate 11 longCreate), .read false fun _ => 0]).2.1
  have htotal : Records.total RawEvent.size s.placed = 2816 := by
    simp [s, Records.total, hsize]
  have hnumRead : s.numRead = 2720 := by
    rw [numRead, htotal]
    decide +kernel
  have hlast : (2560, longCreate) ∈ s.begun := by
    apply List.mem_filter.mpr
    constructor
    · simp [s, Records.located, List.replicate, hsize]
    · rw [decide_eq_true_eq, hnumRead]
      exact ⟨Nat.zero_le _, by decide⟩
  have hinside := (hread.2 _ hlast).1
  dsimp only at hinside
  have hstart : s.consumed = 0 := rfl
  rw [hlooked, hnumRead, hstart] at hinside
  exact absurd hinside (by decide)

end InotifyInput

end Rc2Compute.Files
