import Rc2Compute.Wire.InputBufferManager
import Mathlib.Algebra.BigOperators.Group.List.Basic
import Mathlib.Tactic.Linarith

/-!
# What a chunked byte stream delivers

The decoder empties its whole buffer whenever it extracts a frame.  A chunk
that ends one frame and starts the next therefore loses the bytes of the next
frame.  This module shows that this is the only way to lose anything: a
stream of frames is delivered without loss exactly when every frame ends
where a chunk ends.
-/

namespace Rc2Compute.Wire

/-- The strings a sender of this protocol may frame. -/
def Sendable (msgs : List Bytes) : Prop :=
  ∀ msg ∈ msgs, msg ≠ [] ∧ msg.length < 2 ^ 32 - 8

instance : DecidablePred Sendable := fun msgs =>
  inferInstanceAs
    (Decidable (∀ msg ∈ msgs, msg ≠ [] ∧ msg.length < 2 ^ 32 - 8))

/-- The byte stream of a sequence of messages. -/
def stream (msgs : List Bytes) : Bytes :=
  msgs.flatMap sendJsonToClientSource

/-- The read callback hands over exactly the original strings, in order. -/
def Delivers (msgs chunks : List Bytes) : Prop :=
  ∃ me, readChunks Reader.new chunks = some me ∧ me.handled = msgs

/-- Every frame ends where some chunk ends. -/
def FrameAligned (msgs chunks : List Bytes) : Prop :=
  ∀ k, k ≤ msgs.length → ∃ j,
    (chunks.take j).flatten.length = (stream (msgs.take k)).length

/-! ## Frames as byte strings -/

theorem frame_eq {msg : Bytes} (hmsg : msg ≠ []) :
    sendJsonToClientSource msg =
      htonl kRSessionMagicNumber ++ htonl msg.length ++ msg := by
  have hlen : ¬ msg.length < 1 := by
    have := List.length_pos_iff.mpr hmsg
    omega
  rw [sendJsonToClientSource, if_neg hlen]

@[simp] theorem htonl_length (value : ℕ) : (htonl value).length = 4 :=
  BigEndian.encode_length 4 value

theorem ntohl_htonl {value : ℕ} (hvalue : value < 2 ^ 32) :
    ntohl (htonl value) = value :=
  BigEndian.decode_encode_of_lt (by simpa using hvalue)

theorem frame_length {msg : Bytes} (hmsg : msg ≠ []) :
    (sendJsonToClientSource msg).length = 8 + msg.length := by
  rw [frame_eq hmsg]
  simp only [List.length_append, htonl_length]

@[simp] theorem stream_nil : stream [] = [] := rfl

@[simp] theorem stream_cons (msg : Bytes) (msgs : List Bytes) :
    stream (msg :: msgs) = sendJsonToClientSource msg ++ stream msgs := by
  simp [stream]

theorem Sendable.head {msg : Bytes} {msgs : List Bytes}
    (h : Sendable (msg :: msgs)) :
    msg ≠ [] ∧ msg.length < 2 ^ 32 - 8 :=
  h msg (by simp)

theorem Sendable.tail {msg : Bytes} {msgs : List Bytes}
    (h : Sendable (msg :: msgs)) : Sendable msgs :=
  fun m hm => h m (by simp [hm])

/-! ## One read -/

/-- Whatever the bytes are, one read either hands nothing over and keeps at
most the bytes it got, or hands over one string, keeps nothing, and has used
up a header's worth of bytes more than the string holds. -/
theorem handleJsonStatic_cases {me me' : Reader} {chunk : Bytes}
    (hme : me.inputBuffer.currentJson = [])
    (hread : handleJsonStatic me chunk = some me') :
    me'.inputBuffer.currentJson = [] ∧
      ((me'.handled = me.handled ∧
          me'.inputBuffer.buffer.length ≤
            me.inputBuffer.buffer.length + chunk.length) ∨
        ∃ msg, me'.handled = me.handled ++ [msg] ∧
          me'.inputBuffer.buffer = [] ∧
          8 + msg.length ≤ me.inputBuffer.buffer.length + chunk.length) := by
  simp only [handleJsonStatic, Option.bind_eq_bind,
    Option.bind_eq_some_iff] at hread
  obtain ⟨ib, happend, hread⟩ := hread
  have hib : (ib.currentJson = [] ∧ ib.buffer.length ≤
        me.inputBuffer.buffer.length + chunk.length) ∨
      (ib.buffer = [] ∧ 8 + ib.currentJson.length ≤
        me.inputBuffer.buffer.length + chunk.length) := by
    unfold InputBufferManager.appendData at happend
    dsimp only at happend
    split at happend
    next hsize =>
      split at happend
      · -- wrong magic: `reset`
        cases happend
        exact Or.inl ⟨rfl, Nat.zero_le _⟩
      · split at happend
        · split at happend
          next hfit =>
            cases happend
            refine Or.inr ⟨rfl, ?_⟩
            simp only [hme, List.nil_append, List.length_take,
              List.length_append] at hfit ⊢
            omega
          next => cases happend
        · cases happend
          exact Or.inl ⟨hme, by simp⟩
    next =>
      cases happend
      exact Or.inl ⟨hme, by simp⟩
  by_cases hcomplete : ib.hasCompleteMessage = true
  · simp only [hcomplete, if_true, InputBufferManager.popCurrentMessage,
      Option.some.injEq] at hread
    subst hread
    refine ⟨rfl, Or.inr ⟨ib.currentJson, rfl, ?_⟩⟩
    rcases hib with ⟨hnone, _⟩ | h
    · simp [InputBufferManager.hasCompleteMessage, hnone] at hcomplete
    · exact h
  · simp only [Bool.not_eq_true] at hcomplete
    simp only [hcomplete, Bool.false_eq_true, if_false,
      Option.some.injEq] at hread
    subst hread
    have hnone : ib.currentJson = [] := by
      simpa [InputBufferManager.hasCompleteMessage] using hcomplete
    refine ⟨hnone, Or.inl ⟨rfl, ?_⟩⟩
    rcases hib with ⟨_, h⟩ | ⟨h, _⟩
    · exact h
    · simp [h]

/-- Bytes that leave a frame incomplete are only stored. -/
theorem InputBufferManager.appendData_partial {ib : InputBufferManager}
    {chunk msg rest : Bytes}
    (hmsg : msg ≠ [] ∧ msg.length < 2 ^ 32 - 8)
    (hbytes : ib.buffer ++ chunk ++ rest = sendJsonToClientSource msg)
    (hrest : rest ≠ []) :
    ib.appendData chunk = some { ib with buffer := ib.buffer ++ chunk } := by
  have hlen := congrArg List.length hbytes
  have hpos := List.length_pos_iff.mpr hrest
  rw [frame_length hmsg.1, List.length_append] at hlen
  unfold InputBufferManager.appendData
  dsimp only
  by_cases hsize : (ib.buffer ++ chunk).length > 8
  · have hmagic : (ib.buffer ++ chunk).take 4 =
        htonl kRSessionMagicNumber := by
      have htake := congrArg (List.take 4) hbytes
      rw [List.take_append_of_le_length (by omega), frame_eq hmsg.1] at htake
      simpa using htake
    have hsizeField :
        ((ib.buffer ++ chunk).drop 4).take 4 = htonl msg.length := by
      have htake := congrArg (fun bs => (List.drop 4 bs).take 4) hbytes
      simp only [List.take_drop] at htake ⊢
      rw [List.take_append_of_le_length (by omega), frame_eq hmsg.1] at htake
      simpa [List.take_append, List.drop_append] using htake
    rw [if_pos hsize, hmagic, hsizeField, ntohl_htonl (by decide),
      ntohl_htonl (by omega)]
    rw [if_neg (by simp), if_neg]
    rw [Nat.mod_eq_of_lt (by omega)]
    omega
  · rw [if_neg hsize]

/-- Bytes that complete a frame hand its payload over and leave the decoder
empty, whatever follows the frame. -/
theorem InputBufferManager.appendData_complete {ib : InputBufferManager}
    {chunk msg junk : Bytes}
    (hmsg : msg ≠ [] ∧ msg.length < 2 ^ 32 - 8)
    (hbytes : ib.buffer ++ chunk = sendJsonToClientSource msg ++ junk) :
    ib.appendData chunk =
      some { buffer := [], currentJson := ib.currentJson ++ msg } := by
  have hpos := List.length_pos_iff.mpr hmsg.1
  have hlen := congrArg List.length hbytes
  simp only [List.length_append, frame_length hmsg.1] at hlen
  unfold InputBufferManager.appendData
  dsimp only
  rw [if_pos (by rw [List.length_append]; omega), hbytes, frame_eq hmsg.1]
  have hmagic :
      (htonl kRSessionMagicNumber ++ htonl msg.length ++ msg ++ junk).take 4 =
        htonl kRSessionMagicNumber := by
    simp
  have hsizeField :
      ((htonl kRSessionMagicNumber ++ htonl msg.length ++ msg ++ junk).drop
        4).take 4 = htonl msg.length := by
    simp
  have hpayload :
      (htonl kRSessionMagicNumber ++ htonl msg.length ++ msg ++ junk).drop 8 =
        msg ++ junk := by
    simp [List.drop_append]
  rw [hmagic, hsizeField, hpayload, ntohl_htonl (by decide),
    ntohl_htonl (by omega), if_neg (by simp), Nat.mod_eq_of_lt (by omega),
    if_pos (by simp; omega), if_pos (by simp; omega)]
  simp

/-- A read that leaves the first frame incomplete only stores its bytes. -/
theorem handleJsonStatic_partial {me : Reader} {chunk msg rest : Bytes}
    (hmsg : msg ≠ [] ∧ msg.length < 2 ^ 32 - 8)
    (hbytes : me.inputBuffer.buffer ++ chunk ++ rest =
      sendJsonToClientSource msg)
    (hrest : rest ≠ []) (hme : me.inputBuffer.currentJson = []) :
    handleJsonStatic me chunk =
      some { me with inputBuffer :=
        { me.inputBuffer with buffer := me.inputBuffer.buffer ++ chunk } } := by
  have happend := InputBufferManager.appendData_partial hmsg hbytes hrest
  simp [handleJsonStatic, happend, InputBufferManager.hasCompleteMessage, hme]

/-- A read that ends exactly where the first frame ends hands its payload
over and leaves the decoder empty. -/
theorem handleJsonStatic_complete {me : Reader} {chunk msg : Bytes}
    (hmsg : msg ≠ [] ∧ msg.length < 2 ^ 32 - 8)
    (hbytes : me.inputBuffer.buffer ++ chunk = sendJsonToClientSource msg)
    (hme : me.inputBuffer.currentJson = []) :
    handleJsonStatic me chunk =
      some { inputBuffer := InputBufferManager.new
             handled := me.handled ++ [msg] } := by
  have hpos := List.length_pos_iff.mpr hmsg.1
  have happend := InputBufferManager.appendData_complete hmsg
    (hbytes.trans (List.append_nil _).symm)
  simp [handleJsonStatic, happend, InputBufferManager.hasCompleteMessage,
    InputBufferManager.popCurrentMessage, InputBufferManager.new, hme, hpos]

/-! ## Many reads -/

/-- Bytes that a sender spends on a list of messages. -/
theorem stream_length {msgs : List Bytes} (hmsgs : Sendable msgs) :
    (stream msgs).length = (msgs.map fun msg => 8 + msg.length).sum := by
  induction msgs with
  | nil => rfl
  | cons msg msgs ih =>
      rw [stream_cons, List.length_append, frame_length hmsgs.head.1,
        ih hmsgs.tail, List.map_cons, List.sum_cons]

/-- The reads can only extend the list of strings handed over, and what they
hand over costs at least its framed length in bytes. -/
theorem readChunks_cost {me me' : Reader} {chunks : List Bytes}
    (hme : me.inputBuffer.currentJson = [])
    (hread : readChunks me chunks = some me') :
    ∃ msgs, me'.handled = me.handled ++ msgs ∧
      (msgs.map fun msg => 8 + msg.length).sum ≤
        me.inputBuffer.buffer.length + chunks.flatten.length := by
  induction chunks generalizing me with
  | nil =>
      cases hread
      exact ⟨[], by simp⟩
  | cons chunk chunks ih =>
      rw [readChunks_cons, Option.bind_eq_some_iff] at hread
      obtain ⟨mid, hstep, hread⟩ := hread
      obtain ⟨hmid, hcases⟩ := handleJsonStatic_cases hme hstep
      obtain ⟨msgs, hmsgs, hcost⟩ := ih hmid hread
      rw [List.flatten_cons, List.length_append]
      rcases hcases with ⟨hsame, hbuf⟩ | ⟨msg, hnew, hbuf, hpaid⟩
      · exact ⟨msgs, by rw [hmsgs, hsame], by omega⟩
      · refine ⟨msg :: msgs, by simp [hmsgs, hnew], ?_⟩
        rw [hbuf, List.length_nil] at hcost
        rw [List.map_cons, List.sum_cons]
        omega

/-- Frame ends lie on chunk ends, for a decoder that already stores the first
`stored` bytes of the first frame. -/
def AlignedFrom (stored : ℕ) (msgs chunks : List Bytes) : Prop :=
  ∀ k, 0 < k → k ≤ msgs.length → ∃ j,
    stored + (chunks.take j).flatten.length =
      ((msgs.take k).map fun msg => 8 + msg.length).sum

/-- When the strings handed over cost every byte received, no read has lost a
byte, so every frame was completed by the last byte of a chunk. -/
theorem alignedFrom_of_readChunks (me : Reader) {me' : Reader}
    {msgs chunks : List Bytes}
    (hme : me.inputBuffer.currentJson = [])
    (hread : readChunks me chunks = some me')
    (hmsgs : me'.handled = me.handled ++ msgs)
    (hspent : me.inputBuffer.buffer.length + chunks.flatten.length =
      (msgs.map fun msg => 8 + msg.length).sum) :
    AlignedFrom me.inputBuffer.buffer.length msgs chunks := by
  induction chunks generalizing me msgs with
  | nil =>
      cases hread
      have hnil : msgs = [] := by simpa using hmsgs
      intro k hk hle
      simp only [hnil, List.length_nil] at hle
      omega
  | cons chunk chunks ih =>
      rw [readChunks_cons, Option.bind_eq_some_iff] at hread
      obtain ⟨mid, hstep, hread⟩ := hread
      obtain ⟨hmid, hcases⟩ := handleJsonStatic_cases hme hstep
      obtain ⟨later, hlater, hcost⟩ := readChunks_cost hmid hread
      rw [List.flatten_cons, List.length_append] at hspent
      rcases hcases with ⟨hsame, hbuf⟩ | ⟨msg, hnew, hbuf, hpaid⟩
      · have hsuffix : later = msgs := by
          rw [hmsgs, hsame] at hlater
          exact (List.append_cancel_left hlater).symm
        subst hsuffix
        have hstored : mid.inputBuffer.buffer.length =
            me.inputBuffer.buffer.length + chunk.length := by
          omega
        intro k hk hle
        obtain ⟨j, hj⟩ := ih _ hmid hread hlater (by omega) k hk hle
        refine ⟨j + 1, ?_⟩
        rw [List.take_succ_cons, List.flatten_cons, List.length_append]
        omega
      · have hsuffix : msgs = msg :: later := by
          rw [hmsgs, hnew, List.append_assoc] at hlater
          exact List.append_cancel_left hlater
        subst hsuffix
        rw [hbuf, List.length_nil] at hcost
        rw [List.map_cons, List.sum_cons] at hspent
        intro k hk hle
        obtain ⟨k, rfl⟩ := Nat.exists_eq_succ_of_ne_zero hk.ne'
        rw [List.take_succ_cons, List.map_cons, List.sum_cons]
        rcases Nat.eq_zero_or_pos k with rfl | hkpos
        · exact ⟨1, by simp; omega⟩
        · rw [List.length_cons] at hle
          obtain ⟨j, hj⟩ :=
            ih _ hmid hread hlater (by rw [hbuf, List.length_nil]; omega) k hkpos
              (by omega)
          refine ⟨j + 1, ?_⟩
          rw [hbuf, List.length_nil] at hj
          rw [List.take_succ_cons, List.flatten_cons, List.length_append]
          omega

section AlignedFrom

variable {stored : ℕ} {msg chunk : Bytes} {msgs chunks : List Bytes}

/-- Behind the bytes already stored, a chunk is counted before those that
follow. -/
theorem AlignedFrom.exists_behind
    (h : AlignedFrom stored (msg :: msgs) (chunk :: chunks))
    (hstored : stored < 8 + msg.length) {k : ℕ} (hk : 0 < k)
    (hle : k ≤ (msg :: msgs).length) :
    ∃ j, stored + chunk.length + (chunks.take j).flatten.length =
      (((msg :: msgs).take k).map fun msg => 8 + msg.length).sum := by
  obtain ⟨j, hj⟩ := h k hk hle
  cases j with
  | zero =>
      have hfirst : 8 + msg.length ≤
          (((msg :: msgs).take k).map fun msg => 8 + msg.length).sum := by
        obtain ⟨k, rfl⟩ := Nat.exists_eq_succ_of_ne_zero hk.ne'
        simp
      simp only [List.take_zero, List.flatten_nil, List.length_nil] at hj
      omega
  | succ j =>
      refine ⟨j, ?_⟩
      rw [List.take_succ_cons, List.flatten_cons, List.length_append] at hj
      omega

/-- The first frame does not end inside a chunk. -/
theorem AlignedFrom.chunk_le
    (h : AlignedFrom stored (msg :: msgs) (chunk :: chunks))
    (hstored : stored < 8 + msg.length) :
    stored + chunk.length ≤ 8 + msg.length := by
  obtain ⟨j, hj⟩ := h.exists_behind hstored Nat.one_pos (by simp)
  simp only [List.take_succ_cons, List.take_zero, List.map_cons,
    List.map_nil, List.sum_cons, List.sum_nil] at hj
  omega

/-- A chunk is stored that does not end the first frame. -/
theorem AlignedFrom.store
    (h : AlignedFrom stored (msg :: msgs) (chunk :: chunks))
    (hstored : stored < 8 + msg.length) :
    AlignedFrom (stored + chunk.length) (msg :: msgs) chunks :=
  fun _ hk hle => h.exists_behind hstored hk hle

/-- A chunk ends the first frame. -/
theorem AlignedFrom.tail
    (h : AlignedFrom stored (msg :: msgs) (chunk :: chunks))
    (hstored : stored < 8 + msg.length)
    (hends : stored + chunk.length = 8 + msg.length) :
    AlignedFrom 0 msgs chunks := by
  intro k hk hle
  obtain ⟨j, hj⟩ := h.exists_behind hstored k.succ_pos (Nat.succ_le_succ hle)
  refine ⟨j, ?_⟩
  rw [List.take_succ_cons, List.map_cons, List.sum_cons] at hj
  omega

end AlignedFrom

/-- On an aligned stream each frame is handed over by the read that ends it. -/
theorem readChunks_of_alignedFrom (me : Reader) {msgs chunks : List Bytes}
    (hmsgs : Sendable msgs) (hme : me.inputBuffer.currentJson = [])
    (hbytes : me.inputBuffer.buffer ++ chunks.flatten = stream msgs)
    (hstored : me.inputBuffer.buffer.length <
      (msgs.head?.map fun msg => 8 + msg.length).getD 1)
    (haligned : AlignedFrom me.inputBuffer.buffer.length msgs chunks) :
    ∃ me', readChunks me chunks = some me' ∧
      me'.handled = me.handled ++ msgs := by
  induction chunks generalizing me msgs with
  | nil =>
      cases msgs with
      | nil => exact ⟨me, rfl, by simp⟩
      | cons msg msgs =>
          have hlen := congrArg List.length hbytes
          simp only [List.flatten_nil, List.append_nil, stream_cons,
            List.length_append, frame_length hmsgs.head.1] at hlen
          simp at hstored
          omega
  | cons chunk chunks ih =>
      cases msgs with
      | nil =>
          have hchunk : chunk = [] ∧ chunks.flatten = [] ∧
              me.inputBuffer.buffer = [] := by
            simp only [stream_nil, List.append_eq_nil_iff,
              List.flatten_cons] at hbytes
            exact ⟨hbytes.2.1, hbytes.2.2, hbytes.1⟩
          obtain ⟨rfl, hrest, hbuf⟩ := hchunk
          have hstep : handleJsonStatic me [] = some me := by
            obtain ⟨⟨buffer, currentJson⟩, handled⟩ := me
            simp only at hme hbuf
            subst hme hbuf
            rfl
          rw [readChunks_cons, hstep, Option.bind_some]
          exact ih _ hmsgs hme (by simp [hbuf, hrest]) (by simpa using hstored)
            (fun k hk hle => by simp at hle; omega)
      | cons msg msgs =>
          simp only [List.head?_cons, Option.map_some, Option.getD_some]
            at hstored
          rw [stream_cons, List.flatten_cons, ← List.append_assoc] at hbytes
          have hframe := frame_length hmsgs.head.1
          have hinside := haligned.chunk_le hstored
          by_cases hends : me.inputBuffer.buffer.length + chunk.length =
              8 + msg.length
          · have hsplit := List.append_inj hbytes
              (by rw [List.length_append, hframe, hends])
            have hstep := handleJsonStatic_complete hmsgs.head hsplit.1 hme
            rw [readChunks_cons, hstep, Option.bind_some]
            obtain ⟨me', hread, hhandled⟩ :=
              ih ⟨InputBufferManager.new, me.handled ++ [msg]⟩
                hmsgs.tail rfl (by simpa [InputBufferManager.new] using hsplit.2)
                (by cases msgs <;> simp [InputBufferManager.new])
                (haligned.tail hstored hends)
            exact ⟨me', hread, by simp [hhandled]⟩
          · have hshort : me.inputBuffer.buffer.length + chunk.length <
                8 + msg.length := by
              omega
            obtain ⟨rest, hrest⟩ :
                me.inputBuffer.buffer ++ chunk <+: sendJsonToClientSource msg :=
              List.prefix_of_prefix_length_le
                ⟨chunks.flatten, hbytes⟩ (List.prefix_append _ _)
                (by rw [List.length_append, hframe]; omega)
            have hne : rest ≠ [] := by
              rintro rfl
              have := congrArg List.length hrest
              simp only [List.append_nil, List.length_append, hframe] at this
              omega
            have hstep :=
              handleJsonStatic_partial hmsgs.head hrest hne hme
            rw [readChunks_cons, hstep, Option.bind_some]
            refine ih { me with inputBuffer :=
                { me.inputBuffer with
                  buffer := me.inputBuffer.buffer ++ chunk } }
              hmsgs hme (by simpa [stream_cons] using hbytes) ?_ ?_
            · simpa using hshort
            · rw [List.length_append]
              exact haligned.store hstored

theorem frameAligned_iff_alignedFrom {msgs : List Bytes}
    (hmsgs : Sendable msgs) (chunks : List Bytes) :
    FrameAligned msgs chunks ↔ AlignedFrom 0 msgs chunks := by
  have hlen : ∀ k, (stream (msgs.take k)).length =
      ((msgs.take k).map fun msg => 8 + msg.length).sum := by
    intro k
    exact stream_length fun m hm => hmsgs m (List.mem_of_mem_take hm)
  constructor
  · intro h k _ hle
    obtain ⟨j, hj⟩ := h k hle
    exact ⟨j, by rw [Nat.zero_add, hj, hlen]⟩
  · intro h k hle
    rcases Nat.eq_zero_or_pos k with rfl | hk
    · exact ⟨0, rfl⟩
    · obtain ⟨j, hj⟩ := h k hk hle
      exact ⟨j, by rw [hlen, ← hj, Nat.zero_add]⟩

/-- A stream of frames, cut into chunks in any way, is handed over without
loss, merging, duplication or truncation exactly when every frame ends where
a chunk ends. -/
theorem delivers_iff_frameAligned {msgs chunks : List Bytes}
    (hmsgs : Sendable msgs) (hcut : chunks.flatten = stream msgs) :
    Delivers msgs chunks ↔ FrameAligned msgs chunks := by
  rw [frameAligned_iff_alignedFrom hmsgs]
  constructor
  · rintro ⟨me, hread, hhandled⟩
    refine alignedFrom_of_readChunks Reader.new rfl hread
      (by simp [hhandled, Reader.new]) ?_
    rw [hcut, stream_length hmsgs]
    simp [Reader.new, InputBufferManager.new]
  · intro haligned
    obtain ⟨me, hread, hhandled⟩ :=
      readChunks_of_alignedFrom Reader.new hmsgs rfl (by simpa)
        (by cases msgs <;> simp [Reader.new, InputBufferManager.new]) haligned
    exact ⟨me, hread, by simpa [Reader.new] using hhandled⟩

/-- Two frames are delivered, the first cut inside its header and its payload,
and the second inside its header. -/
theorem delivers_cut_frames :
    Delivers [[123, 125], [91, 93]] [[0, 0, 0], [33, 0, 0, 0, 2, 123], [125],
      [0, 0, 0, 33, 0, 0], [0, 2, 91, 93]] := by
  apply (delivers_iff_frameAligned (by decide) (by decide)).mpr
  intro k hk
  have hcases : k = 0 ∨ k = 1 ∨ k = 2 := by
    simp only [List.length_cons, List.length_nil] at hk
    omega
  rcases hcases with rfl | rfl | rfl
  · exact ⟨0, rfl⟩
  · exact ⟨3, rfl⟩
  · exact ⟨5, rfl⟩

/-- Two frames of one message each, read as one chunk: the second message is
lost. -/
theorem two_frames_in_one_chunk_lose_the_second :
    ¬ ∀ msgs chunks : List Bytes, Sendable msgs →
      chunks.flatten = stream msgs → Delivers msgs chunks := by
  intro h
  obtain ⟨me, hread, hhandled⟩ :=
    h [[123, 125], [91, 93]]
      [[0, 0, 0, 33, 0, 0, 0, 2, 123, 125, 0, 0, 0, 33, 0, 0, 0, 2, 91, 93]]
      (by decide) (by decide)
  have hlost : readChunks Reader.new
      [[0, 0, 0, 33, 0, 0, 0, 2, 123, 125, 0, 0, 0, 33, 0, 0, 0, 2, 91, 93]] =
        some ⟨InputBufferManager.new, [[123, 125]]⟩ := by
    decide
  rw [hlost, Option.some.injEq] at hread
  subst hread
  exact absurd hhandled (by decide)

/-! ## The bytes that are copied -/

namespace InputBufferManager

/-- The value of the length field. -/
def jsonSize (buffer : Bytes) : ℕ :=
  ntohl ((buffer.drop 4).take 4)

/-- A buffer with a header in front and a byte behind it. -/
def HasHeader (buffer : Bytes) : Prop :=
  8 < buffer.length ∧ ntohl (buffer.take 4) = kRSessionMagicNumber

/-- The guard under which `appendData` extracts a message. -/
def Extracts (buffer : Bytes) : Prop :=
  HasHeader buffer ∧ (jsonSize buffer + 8) % 2 ^ 32 ≤ buffer.length

/-- What is copied lies in the buffer it is copied from. -/
def CopiesInside (buffer : Bytes) : Prop :=
  Extracts buffer → 8 + jsonSize buffer ≤ buffer.length

/-- The length field is not one of the eight values that wrap around, unless
the buffer holds as many bytes. -/
def LengthFits (buffer : Bytes) : Prop :=
  ¬(HasHeader buffer ∧ 2 ^ 32 - 8 ≤ jsonSize buffer ∧
    buffer.length < 8 + jsonSize buffer)

instance (buffer : Bytes) : Decidable (CopiesInside buffer) :=
  inferInstanceAs (Decidable
    ((8 < buffer.length ∧ ntohl (buffer.take 4) = kRSessionMagicNumber) ∧
      (jsonSize buffer + 8) % 2 ^ 32 ≤ buffer.length →
        8 + jsonSize buffer ≤ buffer.length))

theorem jsonSize_lt (buffer : Bytes) : jsonSize buffer < 2 ^ 32 := by
  have hword : ((buffer.drop 4).take 4).length ≤ 4 := List.length_take_le _ _
  calc jsonSize buffer
      < 256 ^ ((buffer.drop 4).take 4).length := BigEndian.decode_lt _
    _ ≤ 256 ^ 4 := Nat.pow_le_pow_right (by decide) hword
    _ = 2 ^ 32 := by norm_num

theorem copiesInside_iff {buffer : Bytes} :
    CopiesInside buffer ↔ LengthFits buffer := by
  have hlt := jsonSize_lt buffer
  rw [CopiesInside, LengthFits, Extracts]
  constructor
  · rintro h ⟨hheader, hsize, hshort⟩
    have hwrap : (jsonSize buffer + 8) % 2 ^ 32 ≤ buffer.length := by
      have hlong := hheader.1
      omega
    have hinside := h ⟨hheader, hwrap⟩
    omega
  · rintro h ⟨hheader, hguard⟩
    by_contra hoverrun
    have hsmall : ¬2 ^ 32 - 8 ≤ jsonSize buffer := fun hsize =>
      h ⟨hheader, hsize, by omega⟩
    omega

/-- Copying outside of the buffer is the undefined behaviour of
`appendData`. -/
theorem appendData_isSome (ib : InputBufferManager) (inBuffer : Bytes) :
    (ib.appendData inBuffer).isSome = true ↔
      CopiesInside (ib.buffer ++ inBuffer) := by
  rw [appendData, CopiesInside, Extracts, HasHeader]
  dsimp only
  split
  next hsize =>
    split
    next hmagic => simp [hmagic]
    next hmagic =>
      split
      next hguard =>
        split
        next hinside => exact iff_of_true rfl fun _ => hinside
        next hinside =>
          apply iff_of_false (by simp)
          intro h
          exact hinside (h ⟨⟨hsize, not_not.mp hmagic⟩, hguard⟩)
      next hguard => exact iff_of_true rfl fun h => absurd h.2 hguard
  next hsize => exact iff_of_true rfl fun h => absurd h.1.1 hsize

end InputBufferManager

/-- `P` holds of the buffer at every call of `appendData`. -/
def AtEachRead (P : Bytes → Prop) : Reader → List Bytes → Prop
  | _, [] => True
  | me, chunk :: chunks =>
      P (me.inputBuffer.buffer ++ chunk) ∧
        ∀ me' ∈ handleJsonStatic me chunk, AtEachRead P me' chunks

theorem atEachRead_congr {P Q : Bytes → Prop} (h : ∀ buffer, P buffer ↔ Q buffer)
    (me : Reader) (chunks : List Bytes) :
    AtEachRead P me chunks ↔ AtEachRead Q me chunks := by
  induction chunks generalizing me with
  | nil => exact Iff.rfl
  | cons chunk chunks ih =>
      apply and_congr (h _)
      exact forall₂_congr fun me' _ => ih me'

/-- Where every copy lies in its buffer, the whole stream is read. -/
theorem readChunks_isSome_iff (me : Reader) (chunks : List Bytes) :
    (readChunks me chunks).isSome = true ↔
      AtEachRead InputBufferManager.CopiesInside me chunks := by
  induction chunks generalizing me with
  | nil => exact iff_of_true rfl trivial
  | cons chunk chunks ih =>
      have happend := InputBufferManager.appendData_isSome me.inputBuffer chunk
      rw [readChunks_cons, AtEachRead, ← happend]
      cases hread : me.inputBuffer.appendData chunk with
      | none => simp [handleJsonStatic, hread]
      | some ib =>
          obtain ⟨me', hme'⟩ : ∃ me', handleJsonStatic me chunk = some me' := by
            simp only [handleJsonStatic, hread, Option.bind_eq_bind,
              Option.bind_some]
            split
            · exact ⟨_, rfl⟩
            · exact ⟨_, rfl⟩
          simp [hme', ih]

/-- The decoder stays inside the bytes it removes, whatever the stream and its
chunks are, if and only if no length field it looks at wraps around. -/
theorem copiesInside_iff_lengthFits (chunks : List Bytes) :
    AtEachRead InputBufferManager.CopiesInside Reader.new chunks ↔
      AtEachRead InputBufferManager.LengthFits Reader.new chunks :=
  atEachRead_congr (fun _ => InputBufferManager.copiesInside_iff) _ _

/-- A length field of 2³² - 1, and one byte more: the guard sees 7 bytes. -/
theorem copiesInside_fails_on_wrapped_length :
    ¬∀ chunks, AtEachRead InputBufferManager.CopiesInside Reader.new
      chunks := by
  intro h
  have hread := (h [[0, 0, 0, 33, 255, 255, 255, 255, 0]]).1
  revert hread
  decide

end Rc2Compute.Wire
