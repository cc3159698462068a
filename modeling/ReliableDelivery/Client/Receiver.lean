import ReliableDelivery.Server.ChatServer

/-!
# Reading the socket

The loop of `Client::receiverLoop`, and how it differs from the message callback
of the server.  Both decode what they have buffered and stop at the first invalid
frame.  The client hands over what it has decoded and then looks at the status;
the server looks at the status first, so the frames that arrive together with an
invalid one are lost.
-/

namespace ReliableDelivery

open Decimal MessageCodec

/-- What `recv` returns. -/
inductive RecvResult where
  | failed
  | closed
  | data (buf : Bytes)
  deriving DecidableEq, Repr

/-- The envelopes `receiverLoop` hands to `handleEnvelope`, for the results of
its calls of `recv` until it is stopped. -/
def receiverLoop (pb : Protobuf) (recvBuffer : Bytes) :
    List RecvResult → List Envelope
  | [] => []
  | .failed :: _ => []
  | .closed :: _ => []
  | .data buf :: others =>
      let data := recvBuffer ++ buf
      let result := decodeAll pb data kDefaultMaxFrameLength
      let rest :=
        if 0 < result.consumedBytes then data.drop result.consumedBytes
        else data
      if result.status = .invalidLength ∨ result.status = .parseError then
        result.envelopes
      else result.envelopes ++ receiverLoop pb rest others

section Receiver

variable {pb : Protobuf}

theorem receiverLoop_eq_drainAll (recvBuffer : Bytes) (chunks : List Bytes) :
    receiverLoop pb recvBuffer (chunks.map .data) =
      (frames pb kDefaultMaxFrameLength).drainAll recvBuffer chunks := by
  induction chunks generalizing recvBuffer with
  | nil => rfl
  | cons chunk chunks ih =>
      simp only [List.map_cons, receiverLoop, erase_consumedBytes,
        decodeAll_envelopes, isError_iff, ih, Framing.drainAll]
      cases herror : ((frames pb kDefaultMaxFrameLength).split
          (recvBuffer ++ chunk)).2.1 with
      | none => simp
      | some status => simp

/-- The client handles all frames before the first invalid one, however the
stream is cut. -/
theorem receiverLoop_eq (chunks : List Bytes) :
    receiverLoop pb [] (chunks.map .data) =
      ((frames pb kDefaultMaxFrameLength).split chunks.flatten).1 := by
  rw [receiverLoop_eq_drainAll, Framing.drainAll_eq chunks rfl,
    List.nil_append]

/-- What has been handed over stays so. -/
theorem receiverLoop_prefix (recvBuffer : Bytes) (results more : List RecvResult) :
    receiverLoop pb recvBuffer results <+:
      receiverLoop pb recvBuffer (results ++ more) := by
  induction results generalizing recvBuffer with
  | nil => exact List.nil_prefix
  | cons result results ih =>
      cases result with
      | data buf =>
          simp only [List.cons_append, receiverLoop]
          split
          · exact List.prefix_rfl
          · exact (List.prefix_append_right_inj _).mpr (ih _)
      | _ => exact List.prefix_rfl

/-- The bytes that come with a result. -/
def RecvResult.bytes : RecvResult → Option Bytes
  | .data buf => some buf
  | _ => none

/-- Nothing is handed over but frames of the stream. -/
theorem receiverLoop_prefix_split (results : List RecvResult) :
    receiverLoop pb [] results <+: ((frames pb kDefaultMaxFrameLength).split
      (results.filterMap RecvResult.bytes).flatten).1 := by
  have hchunks : ∀ recvBuffer, ∃ chunks,
      receiverLoop pb recvBuffer results =
        receiverLoop pb recvBuffer (chunks.map .data) ∧
      chunks <+: results.filterMap RecvResult.bytes := by
    induction results with
    | nil => exact fun _ => ⟨[], rfl, List.nil_prefix⟩
    | cons result results ih =>
        intro recvBuffer
        cases result with
        | data buf =>
            simp only [receiverLoop]
            split
            · next herror =>
                refine ⟨[buf], ?_, ?_⟩
                · simp only [List.map_cons, List.map_nil, receiverLoop,
                    if_pos herror]
                · exact List.cons_prefix_cons.mpr ⟨rfl, List.nil_prefix⟩
            · next herror =>
                obtain ⟨chunks, hloop, hprefix⟩ := ih _
                refine ⟨buf :: chunks, ?_, List.cons_prefix_cons.mpr ⟨rfl, hprefix⟩⟩
                simp only [List.map_cons, receiverLoop, if_neg herror]
                exact congrArg _ hloop
        | _ => exact ⟨[], rfl, List.nil_prefix⟩
  obtain ⟨chunks, hloop, more, hmore⟩ := hchunks []
  rw [hloop, receiverLoop_eq, ← hmore, List.flatten_append]
  exact Framing.split_prefix (List.prefix_append _ _)

end Receiver

/-- In no chunk does a valid frame end before the first invalid frame of the
stream shows: the chunk in which it shows completes no other frame. -/
def ErrorInOwnChunk (pb : Protobuf) (chunks : List Bytes) : Prop :=
  ∀ before chunk after, chunks = before ++ chunk :: after →
    ((frames pb kDefaultMaxFrameLength).split before.flatten).2.1 = none →
    ((frames pb kDefaultMaxFrameLength).split
      (before.flatten ++ chunk)).2.1 ≠ none →
    ((frames pb kDefaultMaxFrameLength).split (before.flatten ++ chunk)).1 =
      ((frames pb kDefaultMaxFrameLength).split before.flatten).1

/-- When the cutting of a stream does not matter.  A connection delivers the
same stream in two ways; the callbacks of other connections interleave in any
way.  The server dispatches in both cases the same envelopes, namely all frames
before the first invalid one, as the client does, exactly if in neither way a
chunk completes a valid frame and shows the invalid one. -/
theorem dispatch_independent_of_chunks_iff (pb : Protobuf) (conn : Conn)
    (events₁ events₂ : List NetEvent) (chunks₁ chunks₂ : List Bytes)
    (hevents₁ : eventsOf conn events₁ =
      .connected conn :: chunks₁.map (.message conn))
    (hevents₂ : eventsOf conn events₂ =
      .connected conn :: chunks₂.map (.message conn))
    (hstream : chunks₁.flatten = chunks₂.flatten) :
    (dispatchedFor conn (ChatServer.serve pb {} events₁).2 =
        dispatchedFor conn (ChatServer.serve pb {} events₂).2 ∧
      dispatchedFor conn (ChatServer.serve pb {} events₁).2 =
        ((frames pb kDefaultMaxFrameLength).split chunks₁.flatten).1 ∧
      dispatchedFor conn (ChatServer.serve pb {} events₁).2 =
        receiverLoop pb [] (chunks₁.map .data) ∧
      dispatchedFor conn (ChatServer.serve pb {} events₂).2 =
        receiverLoop pb [] (chunks₂.map .data)) ↔
    ErrorInOwnChunk pb chunks₁ ∧ ErrorInOwnChunk pb chunks₂ := by
  have hall : ∀ events chunks, eventsOf conn events =
      .connected conn :: chunks.map (.message conn) →
      (dispatchedFor conn (ChatServer.serve pb {} events).2 =
        ((frames pb kDefaultMaxFrameLength).split chunks.flatten).1 ↔
          ErrorInOwnChunk pb chunks) := by
    intro events chunks hevents
    have hserved := (@serve_connection {} conn pb events chunks hevents).1
    have hiff := @Framing.feedAll_eq_split_iff _ _ _
      (frames pb kDefaultMaxFrameLength) [] chunks rfl
    simp only [Framing.ErrorAlone, List.nil_append] at hiff
    rw [hserved, hiff]
    rfl
  rw [receiverLoop_eq, receiverLoop_eq, ← hstream]
  rw [← hall events₁ chunks₁ hevents₁, ← hall events₂ chunks₂ hevents₂,
    ← hstream]
  constructor
  · rintro ⟨-, -, h₁, h₂⟩
    exact ⟨h₁, h₂⟩
  · rintro ⟨h₁, h₂⟩
    exact ⟨h₁.trans h₂.symm, h₁, h₁, h₂⟩

/-- Two cuttings of a heartbeat and an empty frame that both keep the invalid
header apart. -/
theorem dispatch_independent_of_chunks_iff_apart :
    dispatchedFor 7 (ChatServer.serve heartbeatProtobuf {}
        [.connected 7, .message 7 [0, 0, 0, 4, 8, 6, 16, 1],
          .message 7 [0, 0, 0, 0]]).2 = [heartbeatOne] ∧
      dispatchedFor 7 (ChatServer.serve heartbeatProtobuf {}
        [.connected 7, .message 7 [0, 0, 0, 4], .connected 8,
          .message 7 [8, 6, 16, 1, 0], .message 7 [0, 0, 0]]).2 =
            [heartbeatOne] ∧
      ErrorInOwnChunk heartbeatProtobuf
        [[0, 0, 0, 4, 8, 6, 16, 1], [0, 0, 0, 0]] ∧
      ErrorInOwnChunk heartbeatProtobuf
        [[0, 0, 0, 4], [8, 6, 16, 1, 0], [0, 0, 0]] := by
  have hresult := dispatch_independent_of_chunks_iff heartbeatProtobuf 7
    [.connected 7, .message 7 [0, 0, 0, 4, 8, 6, 16, 1],
      .message 7 [0, 0, 0, 0]]
    [.connected 7, .message 7 [0, 0, 0, 4], .connected 8,
      .message 7 [8, 6, 16, 1, 0], .message 7 [0, 0, 0]]
    [[0, 0, 0, 4, 8, 6, 16, 1], [0, 0, 0, 0]]
    [[0, 0, 0, 4], [8, 6, 16, 1, 0], [0, 0, 0]] rfl rfl rfl
  have hfirst : dispatchedFor 7 (ChatServer.serve heartbeatProtobuf {}
      [.connected 7, .message 7 [0, 0, 0, 4, 8, 6, 16, 1],
        .message 7 [0, 0, 0, 0]]).2 = [heartbeatOne] := by
    decide +kernel
  have hsecond : dispatchedFor 7 (ChatServer.serve heartbeatProtobuf {}
      [.connected 7, .message 7 [0, 0, 0, 4], .connected 8,
        .message 7 [8, 6, 16, 1, 0], .message 7 [0, 0, 0]]).2 =
          [heartbeatOne] := by
    decide +kernel
  refine ⟨hfirst, hsecond, hresult.mp ?_⟩
  rw [← receiverLoop_eq, hfirst, hsecond]
  decide +kernel

/-- The same bytes, dispatched or not: a heartbeat and an empty frame that come
together are dropped together. -/
theorem dispatch_depends_on_chunks :
    [[0, 0, 0, 4, 8, 6, 16, 1], [0, 0, 0, 0]].flatten =
        [([0, 0, 0, 4, 8, 6, 16, 1, 0, 0, 0, 0] : Bytes)].flatten ∧
      dispatchedFor 7 (ChatServer.serve heartbeatProtobuf {}
        [.connected 7, .message 7 [0, 0, 0, 4, 8, 6, 16, 1],
          .message 7 [0, 0, 0, 0]]).2 = [heartbeatOne] ∧
      dispatchedFor 7 (ChatServer.serve heartbeatProtobuf {}
        [.connected 7,
          .message 7 [0, 0, 0, 4, 8, 6, 16, 1, 0, 0, 0, 0]]).2 = [] ∧
      receiverLoop heartbeatProtobuf []
        [.data [0, 0, 0, 4, 8, 6, 16, 1, 0, 0, 0, 0]] = [heartbeatOne] := by
  decide +kernel

end ReliableDelivery
