import Rc2Compute.Session.Documents
import Rc2Compute.Session.RSession
import Rc2Compute.Wire.Framing

/-!
# The connection of a session

The bytes of the client arrive in chunks, between the events of the session's
queue.  However they are cut, as long as every frame ends where a chunk ends,
the session does what it would do if each message came as the document its
text stands for.
-/

namespace Rc2Compute.Session

open Format (BasicJson ascii parseString)
open Wire (InputBufferManager Sendable stream FrameAligned AlignedFrom)

variable {σ ν : Type}

/-! ## The two levels -/

/-- Bytes of the client arrive, or an event of the queue is run. -/
inductive Arrival (σ ν : Type) where
  | bytes (svc : Services σ ν) (chunk : Bytes)
  | event (svc : Services σ ν) (event : Deferred)

/-- A session with the buffer of its input. -/
structure Connection (σ ν : Type) where
  inputBuffer : InputBufferManager
  session : RSession σ ν

/-- A callback that does not return ends the process. -/
def returning {α : Type} :
    Outcome CxxException α × RSession σ ν → Option (RSession σ ν)
  | (.returned _, s) => some s
  | _ => none

namespace Connection

def start (s : RSession σ ν) : Connection σ ν where
  inputBuffer := InputBufferManager.new
  session := s

/-- One callback: `handleJsonStatic`, which cuts a message out of the buffer,
or that of an event. -/
def step (parser : JsonParser) (c : Connection σ ν) :
    Arrival σ ν → Option (Connection σ ν)
  | .bytes svc chunk => do
      let inputBuffer ← c.inputBuffer.appendData chunk
      if inputBuffer.hasCompleteMessage then
        let (json, inputBuffer) := inputBuffer.popCurrentMessage
        let session ← returning
          (handleJsonStatic svc parser (text json) c.session)
        some { inputBuffer, session }
      else
        some { c with inputBuffer }
  | .event svc event => do
      let session ← returning (runDeferred svc parser event c.session)
      some { c with session }

/-- One callback after the other. -/
def run (parser : JsonParser) (c : Connection σ ν)
    (arrivals : List (Arrival σ ν)) : Option (Connection σ ν) :=
  arrivals.foldlM (step parser) c

@[simp] theorem run_cons (parser : JsonParser) (c : Connection σ ν)
    (arrival : Arrival σ ν) (arrivals : List (Arrival σ ν)) :
    c.run parser (arrival :: arrivals) =
      (c.step parser arrival).bind (run parser · arrivals) := rfl

end Connection

/-- What a session is asked to do: a message, or an event of its queue. -/
inductive Request (σ ν : Type) where
  | message (svc : Services σ ν) (json : Bytes)
  | event (svc : Services σ ν) (event : Deferred)

/-- A message is what its text stands for: its document is handled, with the
exceptions caught that the read callback catches, and a text that is no
document is ignored. -/
def serve (parser : JsonParser) (s : RSession σ ν) :
    Request σ ν → Option (RSession σ ν)
  | .message svc json =>
      match parseString json with
      | .ok doc => returning (Act.tryCatch (handleDocument svc (toJson doc))
          (fun e => if e.type.isStdException then pure () else Act.throw e) s)
      | .error _ => some s
  | .event svc event => returning (runDeferred svc parser event s)

def serveAll (parser : JsonParser) (s : RSession σ ν)
    (requests : List (Request σ ν)) : Option (RSession σ ν) :=
  requests.foldlM (serve parser) s

@[simp] theorem serveAll_cons (parser : JsonParser) (s : RSession σ ν)
    (request : Request σ ν) (requests : List (Request σ ν)) :
    serveAll parser s (request :: requests) =
      (serve parser s request).bind (serveAll parser · requests) := rfl

/-- The chunks among what arrives. -/
def chunks : List (Arrival σ ν) → List Bytes
  | [] => []
  | .bytes _ chunk :: arrivals => chunk :: chunks arrivals
  | .event _ _ :: arrivals => chunks arrivals

theorem chunks_append (arrivals later : List (Arrival σ ν)) :
    chunks (arrivals ++ later) = chunks arrivals ++ chunks later := by
  induction arrivals with
  | nil => rfl
  | cons arrival arrivals ih =>
      cases arrival with
      | bytes svc chunk => exact congrArg (chunk :: ·) ih
      | event svc event => exact ih

/-- What is asked by sending the messages: each when the last byte of its
frame arrives, the events in between.  Of the frame of the first message,
`received` bytes have arrived. -/
def requests : List Bytes → ℕ → List (Arrival σ ν) → List (Request σ ν)
  | _, _, [] => []
  | msgs, received, .event svc event :: arrivals =>
      .event svc event :: requests msgs received arrivals
  | [], _, .bytes _ _ :: arrivals => requests [] 0 arrivals
  | msg :: msgs, received, .bytes svc chunk :: arrivals =>
      if received + chunk.length = 8 + msg.length then
        .message svc msg :: requests msgs 0 arrivals
      else
        requests (msg :: msgs) (received + chunk.length) arrivals

/-- The messages among the requests. -/
def asked : List (Request σ ν) → List Bytes
  | [] => []
  | .message _ json :: requests => json :: asked requests
  | .event _ _ :: requests => asked requests

/-! ## One callback -/

section step

variable {stray : Bytes → ParseOutcome} {c : Connection σ ν}
  {svc : Services σ ν} {chunk msg : Bytes}

/-- The session makes of a message what its text stands for. -/
theorem returning_handleJsonStatic (s : RSession σ ν) (hmsg : msg ≠ [])
    (hrange : parseString msg ≠ .error .undefined) :
    returning (handleJsonStatic svc (streamParser stray) (text msg) s) =
      serve (streamParser stray) s (.message svc msg) := by
  have hlength : ¬(text msg).length < 1 := fun h => hmsg (text_eq_empty h)
  rw [handleJsonStatic, handleJsonCommand, if_neg hlength, serve]
  cases hparse : parseString msg with
  | ok doc => rw [parse_of_ok hparse]
  | error e =>
      have he : e ≠ .undefined := by
        rintro rfl
        exact hrange hparse
      rw [parse_of_error hparse he]
      rfl

/-- A chunk that does not end the frame is only stored. -/
theorem Connection.step_stored (parser : JsonParser) {rest : Bytes}
    (hmsg : msg ≠ [] ∧ msg.length < 2 ^ 32 - 8)
    (hbytes : c.inputBuffer.buffer ++ chunk ++ rest =
      Wire.sendJsonToClientSource msg)
    (hrest : rest ≠ []) (hjson : c.inputBuffer.currentJson = []) :
    c.step parser (.bytes svc chunk) = some { c with inputBuffer :=
      { c.inputBuffer with buffer := c.inputBuffer.buffer ++ chunk } } := by
  have happend := InputBufferManager.appendData_partial hmsg hbytes hrest
  simp [step, happend, InputBufferManager.hasCompleteMessage, hjson]

/-- A chunk that ends the frame has its message handled. -/
theorem Connection.step_complete (parser : JsonParser)
    (hmsg : msg ≠ [] ∧ msg.length < 2 ^ 32 - 8)
    (hbytes : c.inputBuffer.buffer ++ chunk =
      Wire.sendJsonToClientSource msg)
    (hjson : c.inputBuffer.currentJson = []) :
    c.step parser (.bytes svc chunk) =
      (returning (handleJsonStatic svc parser (text msg) c.session)).map
        start := by
  have hpos := List.length_pos_iff.mpr hmsg.1
  have happend := InputBufferManager.appendData_complete hmsg
    (hbytes.trans (List.append_nil _).symm)
  rw [step, happend, hjson, List.nil_append, Option.bind_eq_bind,
    Option.bind_some]
  have hcomplete : InputBufferManager.hasCompleteMessage
      { buffer := [], currentJson := msg } = true := decide_eq_true hpos
  rw [if_pos hcomplete, Option.map_eq_bind]
  rfl

/-- A chunk without bytes behind the last frame does nothing. -/
theorem Connection.step_nothing (parser : JsonParser)
    (hbuffer : c.inputBuffer.buffer = [])
    (hjson : c.inputBuffer.currentJson = []) :
    c.step parser (.bytes svc []) = some c := by
  obtain ⟨⟨buffer, currentJson⟩, session⟩ := c
  obtain rfl : buffer = [] := hbuffer
  obtain rfl : currentJson = [] := hjson
  rfl

end step

/-! ## Runs -/

/-- What is missing of a frame. -/
theorem exists_rest {buffered msg more tail : Bytes} (hmsg : msg ≠ [])
    (hbytes : buffered ++ more = Wire.sendJsonToClientSource msg ++ tail)
    (hshort : buffered.length < 8 + msg.length) :
    ∃ rest, buffered ++ rest = Wire.sendJsonToClientSource msg ∧
      rest ≠ [] := by
  have hframe := Wire.frame_length hmsg
  obtain ⟨rest, hrest⟩ : buffered <+: Wire.sendJsonToClientSource msg :=
    List.prefix_of_prefix_length_le ⟨more, hbytes⟩ (List.prefix_append _ _)
      (by omega)
  refine ⟨rest, hrest, ?_⟩
  rintro rfl
  have hlength := congrArg List.length hrest
  rw [List.append_nil, hframe] at hlength
  omega

section run

variable {stray : Bytes → ParseOutcome}

/-- The run on what is left of the frames, when the first bytes of the first
one are in the buffer. -/
theorem Connection.session_run (c : Connection σ ν) {msgs : List Bytes}
    {arrivals : List (Arrival σ ν)} {later : List Bytes}
    (hmsgs : Sendable msgs)
    (hrange : ∀ msg ∈ msgs, parseString msg ≠ .error .undefined)
    (hjson : c.inputBuffer.currentJson = [])
    (hbytes : c.inputBuffer.buffer ++ (chunks arrivals ++ later).flatten =
      stream msgs)
    (hstored : c.inputBuffer.buffer.length <
      (msgs.head?.map fun msg => 8 + msg.length).getD 1)
    (haligned : AlignedFrom c.inputBuffer.buffer.length msgs
      (chunks arrivals ++ later)) :
    (c.run (streamParser stray) arrivals).map session =
      serveAll (streamParser stray) c.session
        (requests msgs c.inputBuffer.buffer.length arrivals) := by
  induction arrivals generalizing c msgs with
  | nil =>
      cases msgs with
      | nil => rfl
      | cons msg msgs => rfl
  | cons arrival arrivals ih =>
      cases arrival with
      | event svc event =>
          rw [run_cons, requests, serveAll_cons]
          change ((returning _).bind _ |>.bind _).map _ = (returning _).bind _
          cases hrun : returning
              (runDeferred svc (streamParser stray) event c.session) with
          | none => rfl
          | some s =>
              exact ih { c with session := s } hmsgs hrange hjson hbytes
                hstored haligned
      | bytes svc chunk =>
          cases msgs with
          | nil =>
              obtain ⟨hbuffer, hchunk, hrest⟩ : c.inputBuffer.buffer = [] ∧
                  chunk = [] ∧ (chunks arrivals ++ later).flatten = [] := by
                simpa [chunks] using hbytes
              subst hchunk
              rw [run_cons, step_nothing _ hbuffer hjson, Option.bind_some,
                requests]
              have hih := ih c hmsgs hrange hjson (by simp [hbuffer, hrest])
                hstored fun k hk hle => absurd hk (by simpa using hle)
              rwa [hbuffer] at hih
          | cons msg msgs =>
              have hstored : c.inputBuffer.buffer.length < 8 + msg.length :=
                hstored
              have hframe := Wire.frame_length hmsgs.head.1
              have hinside := haligned.chunk_le hstored
              simp only [chunks, List.cons_append, List.flatten_cons,
                Wire.stream_cons, ← List.append_assoc] at hbytes
              rw [run_cons, requests]
              by_cases hends : c.inputBuffer.buffer.length + chunk.length =
                  8 + msg.length
              · have hsplit := List.append_inj hbytes
                  (by rw [List.length_append, hframe, hends])
                rw [step_complete _ hmsgs.head hsplit.1 hjson, if_pos hends,
                  serveAll_cons, returning_handleJsonStatic _ hmsgs.head.1
                    (hrange msg (by simp))]
                cases serve (streamParser stray) c.session
                    (.message svc msg) with
                | none => rfl
                | some s =>
                    have hih := ih (start s) hmsgs.tail
                      (fun m hm => hrange m (by simp [hm])) rfl
                      (by simpa [start, InputBufferManager.new]
                        using hsplit.2)
                      (by cases msgs <;>
                        simp [start, InputBufferManager.new])
                      (haligned.tail hstored hends)
                    exact hih
              · obtain ⟨rest, hrest, hne⟩ := exists_rest hmsgs.head.1
                  hbytes (by rw [List.length_append]; omega)
                rw [step_stored _ hmsgs.head hrest hne hjson, if_neg hends,
                  Option.bind_some, ← List.length_append]
                refine ih _ hmsgs hrange hjson (by simpa using hbytes) ?_ ?_
                · simp only [List.length_append, List.head?_cons,
                    Option.map_some, Option.getD_some]
                  omega
                · rw [List.length_append]
                  exact haligned.store hstored

/-- When all frames have arrived, all messages have been asked for. -/
theorem asked_requests {msgs : List Bytes} {received : ℕ}
    {arrivals : List (Arrival σ ν)}
    (hlength : received + (chunks arrivals).flatten.length =
      (msgs.map fun msg => 8 + msg.length).sum)
    (hstored : received < (msgs.head?.map fun msg => 8 + msg.length).getD 1)
    (haligned : AlignedFrom received msgs (chunks arrivals)) :
    asked (requests msgs received arrivals) = msgs := by
  induction arrivals generalizing msgs received with
  | nil =>
      cases msgs with
      | nil => rfl
      | cons msg msgs =>
          simp only [chunks, List.flatten_nil, List.length_nil, List.map_cons,
            List.sum_cons, List.head?_cons, Option.map_some,
            Option.getD_some] at hlength hstored
          omega
  | cons arrival arrivals ih =>
      cases arrival with
      | event svc event =>
          rw [requests, asked]
          exact ih hlength hstored haligned
      | bytes svc chunk =>
          cases msgs with
          | nil =>
              rw [requests]
              refine ih ?_ (by simp) fun k hk hle =>
                absurd hk (by simpa using hle)
              simp only [chunks, List.flatten_cons, List.length_append,
                List.map_nil, List.sum_nil] at hlength ⊢
              omega
          | cons msg msgs =>
              have hstored : received < 8 + msg.length := hstored
              simp only [chunks, List.flatten_cons, List.length_append,
                List.map_cons, List.sum_cons] at hlength
              rw [requests]
              by_cases hends : received + chunk.length = 8 + msg.length
              · rw [if_pos hends, asked, ih (by omega) (by cases msgs <;> simp)
                  (haligned.tail hstored hends)]
              · have hinside := haligned.chunk_le hstored
                rw [if_neg hends]
                refine ih ?_ ?_ (haligned.store hstored)
                · rw [List.map_cons, List.sum_cons]
                  omega
                · simp only [List.head?_cons, Option.map_some,
                    Option.getD_some]
                  omega

/-- The session behind the frames of any messages, cut into chunks that each
frame ends with, is at every moment as if each message had been asked for when
its last byte arrived. -/
theorem Connection.session_run_start {msgs : List Bytes}
    {arrivals later : List (Arrival σ ν)} (s : RSession σ ν)
    (hmsgs : Sendable msgs)
    (hrange : ∀ msg ∈ msgs, parseString msg ≠ .error .undefined)
    (hcut : (chunks (arrivals ++ later)).flatten = stream msgs)
    (haligned : FrameAligned msgs (chunks (arrivals ++ later))) :
    ((start s).run (streamParser stray) arrivals).map session =
        serveAll (streamParser stray) s (requests msgs 0 arrivals) ∧
      (later = [] → asked (requests msgs 0 arrivals) = msgs) := by
  have hstored : 0 < (msgs.head?.map fun msg => 8 + msg.length).getD 1 := by
    cases msgs <;> simp
  rw [Wire.frameAligned_iff_alignedFrom hmsgs] at haligned
  constructor
  · rw [chunks_append] at hcut haligned
    exact session_run (start s) hmsgs hrange rfl hcut hstored haligned
  · rintro rfl
    rw [List.append_nil] at hcut haligned
    refine asked_requests ?_ hstored haligned
    rw [hcut, Wire.stream_length hmsgs, Nat.zero_add]

end run

/-! ## A client that closes the session -/

/-- The text of a close command. -/
def closeText : Bytes := Format.dump (.object [(ascii "msg",
  .string (ascii "close"))])

/-- Its frame, cut inside the header; the session lists its variables in
between. -/
def closing : List (Arrival Unit Unit) :=
  let svc : Services Unit Unit := .succeeding ()
  [.bytes svc ((stream [closeText]).take 3),
    .event svc (.command listVariablesDelta),
    .bytes svc ((stream [closeText]).drop 3)]

theorem session_run_start_closing :
    ((Connection.start (RSession.fresh ())).run
        (streamParser fun _ => .invalidArgument) closing).map
          Connection.session =
        serveAll (streamParser fun _ => .invalidArgument)
          (RSession.fresh ()) (requests [closeText] 0 closing) ∧
      asked (requests [closeText] 0 closing) = [closeText] := by
  have hparse : parseString closeText = .ok (.object [(ascii "msg",
      .string (ascii "close"))]) :=
    Format.parseString_dump
      (by simp [Format.Canonical, Format.Everywhere, Format.EverywhereOf,
        Format.SortedKeys])
      (by simp [Format.Exact, Format.Everywhere, Format.EverywhereOf,
        Format.ExactNumber])
  have hsendable : Sendable [closeText] := by decide
  have hcut : (chunks (closing ++ [])).flatten = stream [closeText] := by
    change (List.take 3 _ ++ (List.drop 3 _ ++ [])) = _
    rw [List.append_nil, List.take_append_drop]
  have haligned : FrameAligned [closeText] (chunks (closing ++ [])) := by
    intro k hk
    have hcases : k = 0 ∨ k = 1 := by
      simp at hk
      omega
    rcases hcases with rfl | rfl
    · exact ⟨0, rfl⟩
    · exact ⟨2, rfl⟩
  have hrange : ∀ msg ∈ [closeText], parseString msg ≠ .error .undefined := by
    simp [hparse]
  obtain ⟨hrun, hasked⟩ := Connection.session_run_start (RSession.fresh ())
    hsendable hrange hcut haligned
  exact ⟨hrun, hasked rfl⟩

end Rc2Compute.Session
