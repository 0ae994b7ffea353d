import Rc2Compute.Wire.Framing

/-!
# Rounds of input and pops

The decoder as the unit tests use it: chunks are appended and the extracted
text is popped at moments of the caller's choice.  A round is one frame, cut
into chunks, with whatever follows it in its last chunk, or one chunk with a
wrong header.  Between rounds the buffer is empty, so every round starts
afresh, and a pop returns the payloads of the rounds since the last one.
-/

namespace Rc2Compute.Wire

/-- What happens to the decoder.  The chunks of a frame are those of `cut`
and then the one that holds `last` and `junk`. -/
inductive Event where
  | frame (payload : Bytes) (cut : List Bytes) (last junk : Bytes)
  | badChunk (chunk : Bytes)
  | pop
deriving DecidableEq, Repr

/-- The chunk that ends the frame holds a byte of it, unless nothing follows
the frame; a bad chunk has a header's worth of bytes and more, without the
magic number. -/
def Event.WellFormed : Event → Prop
  | .frame payload cut last junk =>
      payload ≠ [] ∧ 8 + payload.length < 2 ^ 32 ∧
        cut.flatten ++ last =
          htonl kRSessionMagicNumber ++ htonl payload.length ++ payload ∧
        (last = [] → junk = [])
  | .badChunk chunk =>
      9 ≤ chunk.length ∧ chunk.take 4 ≠ htonl kRSessionMagicNumber
  | .pop => True

instance : DecidablePred Event.WellFormed := fun event =>
  match event with
  | .frame payload cut last junk =>
      inferInstanceAs (Decidable (payload ≠ [] ∧
        8 + payload.length < 2 ^ 32 ∧ cut.flatten ++ last =
          htonl kRSessionMagicNumber ++ htonl payload.length ++ payload ∧
        (last = [] → junk = [])))
  | .badChunk chunk =>
      inferInstanceAs (Decidable (9 ≤ chunk.length ∧
        chunk.take 4 ≠ htonl kRSessionMagicNumber))
  | .pop => inferInstanceAs (Decidable True)

/-- A pop comes just before every bad chunk; `popped` says that one has just
happened. -/
def Scheduled (popped : Bool) : List Event → Prop
  | [] => True
  | .pop :: events => Scheduled true events
  | .frame payload cut last junk :: events =>
      (Event.frame payload cut last junk).WellFormed ∧ Scheduled false events
  | .badChunk chunk :: events =>
      popped = true ∧ (Event.badChunk chunk).WellFormed ∧
        Scheduled false events

instance decidableScheduled :
    (popped : Bool) → DecidablePred (Scheduled popped)
  | _, [] => isTrue trivial
  | _, .pop :: events => decidableScheduled true events
  | _, .frame payload cut last junk :: events =>
      have := decidableScheduled false events
      inferInstanceAs (Decidable
        ((Event.frame payload cut last junk).WellFormed ∧
          Scheduled false events))
  | popped, .badChunk chunk :: events =>
      have := decidableScheduled false events
      inferInstanceAs (Decidable (popped = true ∧
        (Event.badChunk chunk).WellFormed ∧ Scheduled false events))

/-! ## Running the decoder -/

/-- What a caller sees around one pop. -/
structure Popped where
  complete : Bool
  json : Bytes
deriving DecidableEq, Repr

/-- Append one chunk after the other. -/
def feed (ib : InputBufferManager) (chunks : List Bytes) :
    Option InputBufferManager :=
  chunks.foldlM InputBufferManager.appendData ib

@[simp] theorem feed_nil (ib : InputBufferManager) :
    feed ib [] = some ib := rfl

@[simp] theorem feed_cons (ib : InputBufferManager) (chunk : Bytes)
    (chunks : List Bytes) :
    feed ib (chunk :: chunks) = (ib.appendData chunk).bind (feed · chunks) :=
  rfl

theorem feed_append (ib : InputBufferManager) (chunks rest : List Bytes) :
    feed ib (chunks ++ rest) = (feed ib chunks).bind (feed · rest) := by
  induction chunks generalizing ib with
  | nil => rfl
  | cons chunk chunks ih =>
      simp only [List.cons_append, feed_cons, Option.bind_assoc]
      congr 1
      funext ib'
      exact ih ib'

/-- The pops of a schedule and the decoder behind it. -/
def process (ib : InputBufferManager) :
    List Event → Option (List Popped × InputBufferManager)
  | [] => some ([], ib)
  | .frame _ cut last junk :: events => do
      let ib ← feed ib (cut ++ [last ++ junk])
      process ib events
  | .badChunk chunk :: events => do
      let ib ← feed ib [chunk]
      process ib events
  | .pop :: events => do
      let (json, ib') := ib.popCurrentMessage
      let (pops, ib'') ← process ib' events
      some (⟨ib.hasCompleteMessage, json⟩ :: pops, ib'')

/-- What the pops should return: the payloads since the last pop, starting
from those in `pending`. -/
def payloadsPopped (pending : Bytes) : List Event → List Bytes
  | [] => []
  | .frame payload _ _ _ :: events => payloadsPopped (pending ++ payload) events
  | .badChunk _ :: events => payloadsPopped pending events
  | .pop :: events => pending :: payloadsPopped [] events

/-! ## One round -/

/-- A decoder between rounds. -/
def between (pending : Bytes) : InputBufferManager where
  buffer := []
  currentJson := pending

/-- Chunks that leave a frame incomplete only pile up. -/
theorem feed_partial {ib : InputBufferManager} {msg rest : Bytes}
    (hmsg : msg ≠ [] ∧ msg.length < 2 ^ 32 - 8) (hrest : rest ≠ [])
    {chunks : List Bytes}
    (hbytes : ib.buffer ++ chunks.flatten ++ rest =
      sendJsonToClientSource msg) :
    feed ib chunks =
      some { ib with buffer := ib.buffer ++ chunks.flatten } := by
  induction chunks generalizing ib with
  | nil => simp
  | cons chunk chunks ih =>
      have hfirst := InputBufferManager.appendData_partial hmsg
        (show ib.buffer ++ chunk ++ (chunks.flatten ++ rest) = _ by
          simpa using hbytes)
        (by simp [hrest])
      rw [feed_cons, hfirst, Option.bind_some, ih (by simpa using hbytes)]
      simp

/-- Empty chunks between rounds change nothing. -/
theorem feed_empty (pending : Bytes) {chunks : List Bytes}
    (h : chunks.flatten = []) :
    feed (between pending) chunks = some (between pending) := by
  induction chunks with
  | nil => rfl
  | cons chunk chunks ih =>
      rw [List.flatten_cons, List.append_eq_nil_iff] at h
      obtain ⟨rfl, hrest⟩ := h
      exact ih hrest

/-- A whole frame, cut in any way, without anything behind it. -/
theorem feed_frame {ib : InputBufferManager} {msg : Bytes}
    (hmsg : msg ≠ [] ∧ msg.length < 2 ^ 32 - 8) {chunks : List Bytes}
    (hbytes : ib.buffer ++ chunks.flatten = sendJsonToClientSource msg)
    (hshort : ib.buffer ≠ sendJsonToClientSource msg) :
    feed ib chunks = some (between (ib.currentJson ++ msg)) := by
  induction chunks generalizing ib with
  | nil =>
      rw [List.flatten_nil, List.append_nil] at hbytes
      exact absurd hbytes hshort
  | cons chunk chunks ih =>
      rw [List.flatten_cons, ← List.append_assoc] at hbytes
      by_cases hrest : chunks.flatten = []
      · have hlast := InputBufferManager.appendData_complete hmsg
          (show ib.buffer ++ chunk = sendJsonToClientSource msg ++ [] by
            rw [List.append_nil, ← hbytes, hrest, List.append_nil])
        rw [feed_cons, hlast, Option.bind_some]
        exact feed_empty _ hrest
      · have hfirst := InputBufferManager.appendData_partial hmsg hbytes hrest
        rw [feed_cons, hfirst, Option.bind_some]
        apply ih
        · exact hbytes
        · intro hwhole
          rw [← hwhole] at hbytes
          exact hrest (List.append_right_eq_self.mp hbytes)

/-- A frame round adds its payload and leaves the buffer empty. -/
theorem feed_round {pending payload last junk : Bytes} {cut : List Bytes}
    (h : (Event.frame payload cut last junk).WellFormed) :
    feed (between pending) (cut ++ [last ++ junk]) =
      some (between (pending ++ payload)) := by
  obtain ⟨hne, hlen, hbytes, hjunk⟩ := h
  have hmsg : payload ≠ [] ∧ payload.length < 2 ^ 32 - 8 := by
    constructor
    · exact hne
    · omega
  rw [← frame_eq hne] at hbytes
  by_cases hlast : last = []
  · have hwhole : (cut ++ [last ++ junk]).flatten =
        sendJsonToClientSource payload := by
      simpa [hlast, hjunk hlast] using hbytes
    apply feed_frame hmsg
    · exact hwhole
    · intro hempty
      have hframe := congrArg List.length hempty
      rw [frame_length hne] at hframe
      simp only [between, List.length_nil] at hframe
      omega
  · have hcut : feed (between pending) cut =
        some { between pending with buffer := [] ++ cut.flatten } :=
      feed_partial hmsg hlast hbytes
    have hend : InputBufferManager.appendData
        { between pending with buffer := [] ++ cut.flatten } (last ++ junk) =
          some (between (pending ++ payload)) :=
      InputBufferManager.appendData_complete hmsg
        (show [] ++ cut.flatten ++ (last ++ junk) = _ ++ junk by
          simp [← hbytes])
    rw [feed_append, hcut, Option.bind_some, feed_cons]
    exact congrArg (Option.bind · (feed · [])) hend

/-- A bad chunk leaves an empty decoder. -/
theorem feed_bad {chunk : Bytes} (h : (Event.badChunk chunk).WellFormed) :
    feed (between []) [chunk] = some (between []) := by
  obtain ⟨hlen, hmagic⟩ := h
  have hread : ntohl (chunk.take 4) ≠ kRSessionMagicNumber := by
    intro heq
    apply hmagic
    have hlen4 : (chunk.take 4).length = 4 := by
      rw [List.length_take]
      omega
    have hback := BigEndian.encode_decode (chunk.take 4)
    rw [hlen4] at hback
    rw [← heq, htonl, ntohl, hback]
  have happend : (between []).appendData chunk = some (between []) := by
    unfold InputBufferManager.appendData
    dsimp only [between]
    rw [if_pos (by simp; omega), List.nil_append, if_pos hread]
    rfl
  rw [feed_cons, happend]
  rfl

/-! ## Schedules -/

/-- A decoder between rounds stays one along a schedule, and its pops return
the payloads. -/
theorem process_between {popped : Bool} {pending : Bytes}
    {events : List Event} (h : Scheduled popped events)
    (hpending : popped = true → pending = []) :
    ∃ pops rest, process (between pending) events =
        some (pops, between rest) ∧
      pops.map Popped.json = payloadsPopped pending events ∧
      ∀ p ∈ pops, p.complete = true ↔ p.json ≠ [] := by
  induction events generalizing popped pending with
  | nil => exact ⟨[], pending, rfl, rfl, by simp⟩
  | cons event events ih =>
      cases event with
      | frame payload cut last junk =>
          obtain ⟨hround, htail⟩ := h
          obtain ⟨pops, rest, hrun, hpops⟩ :=
            ih htail (by simp : false = true → pending ++ payload = [])
          refine ⟨pops, rest, ?_, hpops⟩
          simp only [process, Option.bind_eq_bind]
          rw [feed_round hround, Option.bind_some, hrun]
      | badChunk chunk =>
          obtain ⟨hpop, hbad, htail⟩ := h
          obtain rfl := hpending hpop
          obtain ⟨pops, rest, hrun, hpops⟩ := ih htail (fun _ => rfl)
          refine ⟨pops, rest, ?_, hpops⟩
          simp only [process, Option.bind_eq_bind]
          rw [feed_bad hbad, Option.bind_some, hrun]
      | pop =>
          obtain ⟨pops, rest, hrun, hjson, hcomplete⟩ :=
            ih h (fun _ => rfl)
          refine ⟨⟨decide (pending.length > 0), pending⟩ :: pops, rest,
            ?_, ?_, ?_⟩
          · have hpop : (between pending).popCurrentMessage =
                (pending, between []) := rfl
            simp only [process, Option.bind_eq_bind, hpop]
            rw [hrun]
            rfl
          · rw [List.map_cons, hjson]
            rfl
          · intro p hp
            rcases List.mem_cons.mp hp with rfl | hp
            · simp [List.length_pos_iff]
            · exact hcomplete p hp

theorem Scheduled.take {popped : Bool} {events : List Event}
    (h : Scheduled popped events) (k : ℕ) :
    Scheduled popped (events.take k) := by
  induction k generalizing popped events with
  | zero => trivial
  | succ k ih =>
      cases events with
      | nil => trivial
      | cons event events =>
          cases event with
          | frame payload cut last junk => exact ⟨h.1, ih h.2⟩
          | badChunk chunk => exact ⟨h.1, h.2.1, ih h.2.2⟩
          | pop => exact ih h

/-- Along a schedule of rounds and pops every pop returns the payloads of the
frames since the pop before it, `hasCompleteMessage` tells whether there are
any, and the buffer is empty after every round. -/
theorem frameAligned_delivery {events : List Event}
    (h : Scheduled false events) (k : ℕ) :
    ∃ pops ib, process InputBufferManager.new (events.take k) =
        some (pops, ib) ∧
      pops.map Popped.json = payloadsPopped [] (events.take k) ∧
      (∀ p ∈ pops, p.complete = true ↔ p.json ≠ []) ∧
      ib.buffer = [] := by
  obtain ⟨pops, rest, hrun, hjson, hcomplete⟩ :=
    process_between (h.take k) fun _ => rfl
  exact ⟨pops, between rest, hrun, hjson, hcomplete, rfl⟩

/-- Two frames with junk behind the second, a bad chunk, and one more
frame. -/
theorem frameAligned_delivery_rounds :
    ∃ pops ib, process InputBufferManager.new
        [.frame [123] [[0, 0, 0, 33], [0, 0, 0]] [1, 123] [],
          .frame [125] [[]] [0, 0, 0, 33, 0, 0, 0, 1, 125] [65, 90, 2, 11],
          .pop, .badChunk [0, 0, 0, 34, 0, 0, 0, 1, 91],
          .frame [93] [] [0, 0, 0, 33, 0, 0, 0, 1, 93] [], .pop] =
        some (pops, ib) ∧
      pops.map Popped.json = [[123, 125], [93]] ∧
      (∀ p ∈ pops, p.complete = true ↔ p.json ≠ []) ∧
      ib.buffer = [] :=
  frameAligned_delivery (show Scheduled false
    [.frame [123] [[0, 0, 0, 33], [0, 0, 0]] [1, 123] [],
      .frame [125] [[]] [0, 0, 0, 33, 0, 0, 0, 1, 125] [65, 90, 2, 11],
      .pop, .badChunk [0, 0, 0, 34, 0, 0, 0, 1, 91],
      .frame [93] [] [0, 0, 0, 33, 0, 0, 0, 1, 93] [], .pop]
    by decide) 6

end Rc2Compute.Wire
