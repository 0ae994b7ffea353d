import Rc2Compute.Format.Acceptance
import Rc2Compute.Wire.Framing

/-!
# Documents over the wire

A sender prints documents and frames their texts, and the bytes arrive in
chunks.  When every frame ends where a chunk ends, the session's read callback
hands over texts that parse to the documents sent, in order.
-/

namespace Rc2Compute.Wire

open Format (BasicJson dump parseStream parseString Canonical Exact)

/-- A document that can be sent: the library holds it, its numbers are exact,
and its text fits a frame. -/
structure Transferable (doc : BasicJson) : Prop where
  canonical : Canonical doc
  exact : Exact doc
  fits : (dump doc).length < 2 ^ 32 - 8

theorem parseStream_dump {doc : BasicJson} (hcanonical : Canonical doc)
    (hexact : Exact doc) : parseStream (dump doc) = .ok doc := by
  exact (Format.parse_stream _ _).trans
    (Format.parseString_dump hcanonical hexact)

/-- The empty text is no document. -/
theorem dump_ne_nil {doc : BasicJson} (h : Transferable doc) :
    dump doc ≠ [] := by
  intro hnil
  have hparse := Format.parseString_dump h.canonical h.exact
  rw [hnil] at hparse
  cases hparse

theorem sendable_dump {docs : List BasicJson}
    (h : ∀ doc ∈ docs, Transferable doc) : Sendable (docs.map dump) := by
  intro msg hmsg
  obtain ⟨doc, hdoc, rfl⟩ := List.mem_map.mp hmsg
  exact ⟨dump_ne_nil (h doc hdoc), (h doc hdoc).fits⟩

/-- Documents that are printed, framed, sent and read come back as they
were. -/
theorem documents_delivered {docs : List BasicJson} {chunks : List Bytes}
    (hdocs : ∀ doc ∈ docs, Transferable doc)
    (hcut : chunks.flatten = stream (docs.map dump))
    (haligned : FrameAligned (docs.map dump) chunks) :
    ∃ me, readChunks Reader.new chunks = some me ∧
      me.handled.map parseStream = docs.map .ok := by
  have hsendable := sendable_dump hdocs
  rw [frameAligned_iff_alignedFrom hsendable] at haligned
  obtain ⟨me, hread, hhandled⟩ :=
    readChunks_of_alignedFrom Reader.new hsendable rfl (by simpa)
      (by cases docs <;> simp [Reader.new, InputBufferManager.new]) haligned
  refine ⟨me, hread, ?_⟩
  rw [hhandled, Reader.new, List.nil_append, List.map_map]
  refine List.map_congr_left fun doc hdoc => ?_
  exact parseStream_dump (hdocs doc hdoc).canonical (hdocs doc hdoc).exact

/-- An empty object, cut inside the header of its frame. -/
theorem documents_delivered_cut :
    ∃ me, readChunks Reader.new [[0, 0, 0], [33, 0, 0, 0, 2, 123, 125]] =
        some me ∧
      me.handled.map parseStream = [.ok (.object [])] := by
  have hdoc : Transferable (.object []) :=
    ⟨by simp [Canonical, Format.Everywhere, Format.EverywhereOf,
        Format.SortedKeys],
      by simp [Exact, Format.Everywhere, Format.EverywhereOf,
        Format.ExactNumber], by decide⟩
  have haligned : FrameAligned ([BasicJson.object []].map dump)
      [[0, 0, 0], [33, 0, 0, 0, 2, 123, 125]] := by
    intro k hk
    have : k = 0 ∨ k = 1 := by
      simp at hk
      omega
    rcases this with rfl | rfl
    · exact ⟨0, rfl⟩
    · exact ⟨2, rfl⟩
  exact documents_delivered (by simpa using hdoc) (by decide) haligned

/-! ## What a stream determines -/

/-- A frame says where it ends. -/
theorem frame_inj {msg msg' rest rest' : Bytes}
    (hmsg : msg ≠ [] ∧ msg.length < 2 ^ 32 - 8)
    (hmsg' : msg' ≠ [] ∧ msg'.length < 2 ^ 32 - 8)
    (h : sendJsonToClientSource msg ++ rest =
      sendJsonToClientSource msg' ++ rest') : msg = msg' ∧ rest = rest' := by
  rw [frame_eq hmsg.1, frame_eq hmsg'.1] at h
  simp only [List.append_assoc] at h
  have hsize := (List.append_inj h rfl).2
  obtain ⟨hword, hpayload⟩ := List.append_inj hsize (by simp)
  have hlength : msg.length = msg'.length := by
    have hdecode := congrArg ntohl hword
    rwa [ntohl_htonl (by omega), ntohl_htonl (by omega)] at hdecode
  exact List.append_inj hpayload hlength

theorem stream_inj {msgs msgs' : List Bytes} (hmsgs : Sendable msgs)
    (hmsgs' : Sendable msgs') (h : stream msgs = stream msgs') :
    msgs = msgs' := by
  have hne : ∀ {msg : Bytes} {msgs : List Bytes}, Sendable (msg :: msgs) →
      stream (msg :: msgs) ≠ [] := by
    intro msg msgs hmsgs hnil
    have hlength := congrArg List.length hnil
    rw [stream_cons, List.length_append, frame_length hmsgs.head.1,
      List.length_nil] at hlength
    omega
  induction msgs generalizing msgs' with
  | nil =>
      cases msgs' with
      | nil => rfl
      | cons msg' msgs' => exact absurd h.symm (hne hmsgs')
  | cons msg msgs ih =>
      cases msgs' with
      | nil => exact absurd h (hne hmsgs)
      | cons msg' msgs' =>
          rw [stream_cons, stream_cons] at h
          obtain ⟨rfl, hrest⟩ := frame_inj hmsgs.head hmsgs'.head h
          rw [ih hmsgs.tail hmsgs'.tail hrest]

/-- Printed and framed documents are told apart. -/
theorem documents_inj {docs docs' : List BasicJson}
    (hdocs : ∀ doc ∈ docs, Transferable doc)
    (hdocs' : ∀ doc ∈ docs', Transferable doc)
    (h : stream (docs.map dump) = stream (docs'.map dump)) : docs = docs' := by
  have hmap := stream_inj (sendable_dump hdocs) (sendable_dump hdocs') h
  have hparsed := congrArg (List.map parseString) hmap
  have hback : ∀ docs : List BasicJson, (∀ doc ∈ docs, Transferable doc) →
      (docs.map dump).map parseString = docs.map .ok := by
    intro docs hdocs
    rw [List.map_map]
    exact List.map_congr_left fun doc hdoc =>
      Format.parseString_dump (hdocs doc hdoc).canonical (hdocs doc hdoc).exact
  rw [hback docs hdocs, hback docs' hdocs'] at hparsed
  exact List.map_injective_iff.mpr (fun _ _ => Except.ok.inj) hparsed

end Rc2Compute.Wire
