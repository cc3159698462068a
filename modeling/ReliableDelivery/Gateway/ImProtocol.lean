import ReliableDelivery.Protocol.Codec
import ReliableDelivery.Protocol.Wire

/-!
# The protocol adapter of the gateway

`ImProtocol.ts` frames the same envelopes as `Codec.h`, written a second time in
another language.  On the JavaScript side an envelope is an object whose numbers
are doubles, so a 64-bit field is exact below `2 ^ 53` only.  What protobufjs
does with a body is a parameter, like protobuf itself.
-/

namespace ReliableDelivery

open Decimal MessageCodec

/-! ## Envelopes as objects -/

/-- The member of the `oneof`.  The numbers are doubles without a fractional
part, the texts are given by their UTF-8 bytes. -/
inductive PayloadObject where
  | loginReq (uid : ℕ)
  | loginResp (ok : Bool) (reason : Bytes)
  | chatReq (fromUid toUid : ℕ) (content clientMsgId : Bytes)
  | chatPush (msgId fromUid toUid : ℕ) (content : Bytes)
      (serverTimestampMs : ℕ) (history : Bool)
  | ack (msgId seq : ℕ) (ok : Bool) (reason : Bytes)
  | heartbeat (uid : ℕ)
  deriving DecidableEq, Repr

/-- `EnvelopeObject`, with an absent property read as its default. -/
structure EnvelopeObject where
  type : ℤ := 0
  seq : ℕ := 0
  timestampMs : ℕ := 0
  payload : Option PayloadObject := none
  deriving DecidableEq, Repr

/-- The object with the field values of the message. -/
def Payload.toObject : Payload → PayloadObject
  | .loginReq request => .loginReq request.uid.toNat
  | .loginResp response => .loginResp response.ok response.reason
  | .chatReq request =>
      .chatReq request.fromUid.toNat request.toUid.toNat request.content
        request.clientMsgId
  | .chatPush push =>
      .chatPush push.msgId.toNat push.fromUid.toNat push.toUid.toNat
        push.content push.serverTimestampMs.toNat push.history
  | .ack a => .ack a.msgId.toNat a.seq.toNat a.ok a.reason
  | .heartbeat h => .heartbeat h.uid.toNat

def Envelope.toObject (envelope : Envelope) : EnvelopeObject where
  type := envelope.type.number
  seq := envelope.seq.toNat
  timestampMs := envelope.timestampMs.toNat
  payload := envelope.payload.map Payload.toObject

/-- The 64-bit fields of a message. -/
def Payload.longs : Payload → List UInt64
  | .loginReq request => [request.uid]
  | .loginResp _ => []
  | .chatReq request => [request.fromUid, request.toUid]
  | .chatPush push =>
      [push.msgId, push.fromUid, push.toUid, push.serverTimestampMs]
  | .ack a => [a.msgId, a.seq]
  | .heartbeat h => [h.uid]

def Envelope.longs (envelope : Envelope) : List UInt64 :=
  envelope.seq :: envelope.timestampMs ::
    (envelope.payload.map Payload.longs).getD []

/-- Every 64-bit field is a double without rounding. -/
def Envelope.Exact (envelope : Envelope) : Prop :=
  ∀ n ∈ envelope.longs, n.toNat < 2 ^ 53

/-- `encode(..).finish()`, and `decode` followed by `toObject`.  A body that is
refused raises an exception with a message. -/
structure Protobufjs where
  encode : EnvelopeObject → Bytes
  decode : Bytes → Except Bytes EnvelopeObject

/-- Both parsers accept the same bodies and read the same field values. -/
structure Protobufjs.Agrees (js : Protobufjs) (pb : Protobuf) : Prop where
  accepted : ∀ body envelope, pb.parse body = some envelope →
    ∃ object, js.decode body = .ok object ∧
      (envelope.Exact → object = envelope.toObject)
  refused : ∀ body, pb.parse body = none →
    ∃ message, js.decode body = .error message

/-! ## Frames -/

namespace ImProtocol

def maxFrameLength : ℕ := 1024 * 1024

/-- `Buffer.writeUInt32BE` raises an exception for a number out of range. -/
def writeUInt32BE (n : ℕ) : Except Bytes Bytes :=
  if n < 2 ^ 32 then .ok (htonl n)
  else .error (literal "The value of \"value\" is out of range.")

def encode (js : Protobufjs) (envelope : EnvelopeObject) :
    Except Bytes Bytes := do
  let body := js.encode envelope
  let header ← writeUInt32BE body.length
  pure (header ++ body)

structure Decoded where
  envelopes : List EnvelopeObject
  rest : Bytes
  deriving DecidableEq

/-- The loop of `decode`.  Every round that goes on consumes at least a header,
so as many rounds as there are bytes are enough. -/
def decodeLoop (js : Protobufjs) (buffer : Bytes) :
    (fuel offset : ℕ) → List EnvelopeObject → Except Bytes Decoded
  | 0, offset, envelopes => .ok ⟨envelopes, buffer.drop offset⟩
  | fuel + 1, offset, envelopes =>
      if 4 ≤ buffer.length - offset then
        let bodyLength := ntohl ((buffer.drop offset).take 4)
        if bodyLength = 0 ∨ maxFrameLength < bodyLength then
          .error (literal "invalid frame length: " ++ render bodyLength)
        else
          let frameLength := 4 + bodyLength
          if buffer.length - offset < frameLength then
            .ok ⟨envelopes, buffer.drop offset⟩
          else do
            let decoded ←
              js.decode ((buffer.drop (offset + 4)).take bodyLength)
            decodeLoop js buffer fuel (offset + frameLength)
              (envelopes ++ [decoded])
      else .ok ⟨envelopes, buffer.drop offset⟩

def decode (js : Protobufjs) (buffer : Bytes) : Except Bytes Decoded :=
  decodeLoop js buffer buffer.length 0 []

/-! ## The two decoders -/

section Agreement

variable {pb : Protobuf} {js : Protobufjs}

/-- The object read by one decoder is the envelope read by the other, up to the
rounding of numbers that are not exact. -/
def SameFields (object : EnvelopeObject) (envelope : Envelope) : Prop :=
  envelope.Exact → object = envelope.toObject

/-- The outcome of `decode` that belongs to a result of `DecodeAll`. -/
def Matches (buffer : Bytes) (result : DecodeResult) :
    Except Bytes Decoded → Prop
  | .ok decoded =>
      (result.status = .ok ∨ result.status = .needMoreData) ∧
        decoded.rest = buffer.drop result.consumedBytes ∧
        List.Forall₂ SameFields decoded.envelopes result.envelopes
  | .error _ => result.status = .invalidLength ∨ result.status = .parseError

/-- The loops agree round by round.  They leave in different places: one tests
for the end of the buffer and then for a header, the other for a header only. -/
theorem decodeLoop_matches (hagree : js.Agrees pb) (buffer : Bytes)
    (fuel offset : ℕ) (objects : List EnvelopeObject)
    (envelopes : List Envelope)
    (hsame : List.Forall₂ SameFields objects envelopes) :
    Matches buffer
      (MessageCodec.decodeLoop pb buffer kDefaultMaxFrameLength fuel offset
        envelopes)
      (decodeLoop js buffer fuel offset objects) := by
  induction fuel generalizing offset objects envelopes with
  | zero => exact ⟨.inl rfl, rfl, hsame⟩
  | succ fuel ih =>
      have hk : kHeaderLength = 4 := rfl
      simp only [MessageCodec.decodeLoop, decodeLoop]
      by_cases hheader : 4 ≤ buffer.length - offset
      · have hmore : offset < buffer.length := by omega
        have hlong : ¬buffer.length - offset < kHeaderLength := by omega
        rw [if_pos hmore, if_neg hlong, if_pos hheader]
        by_cases hlength : ntohl ((buffer.drop offset).take 4) = 0 ∨
            maxFrameLength < ntohl ((buffer.drop offset).take 4)
        · rw [if_pos hlength]
          have hinvalid : ntohl ((buffer.drop offset).take kHeaderLength) = 0 ∨
              kDefaultMaxFrameLength <
                ntohl ((buffer.drop offset).take kHeaderLength) := hlength
          rw [if_pos hinvalid]
          exact .inl rfl
        · rw [if_neg hlength]
          have hvalid : ¬(ntohl ((buffer.drop offset).take kHeaderLength) = 0 ∨
              kDefaultMaxFrameLength <
                ntohl ((buffer.drop offset).take kHeaderLength)) := hlength
          rw [if_neg hvalid, hk]
          by_cases hbody : buffer.length - offset <
              4 + ntohl ((buffer.drop offset).take 4)
          · rw [if_pos hbody, if_pos hbody]
            exact ⟨.inr rfl, rfl, hsame⟩
          · rw [if_neg hbody, if_neg hbody]
            cases hparse : pb.parse ((buffer.drop (offset + 4)).take
                (ntohl ((buffer.drop offset).take 4))) with
            | none =>
                obtain ⟨message, hmessage⟩ := hagree.refused _ hparse
                rw [hmessage]
                exact .inr rfl
            | some envelope =>
                obtain ⟨object, hobject, hfields⟩ :=
                  hagree.accepted _ envelope hparse
                rw [hobject]
                exact ih _ _ _ (List.rel_append hsame (.cons hfields .nil))
      · rw [if_neg hheader]
        by_cases hmore : offset < buffer.length
        · have hshort : buffer.length - offset < kHeaderLength := by omega
          rw [if_pos hmore, if_pos hshort]
          exact ⟨.inr rfl, rfl, hsame⟩
        · rw [if_neg hmore]
          exact ⟨.inl rfl, rfl, hsame⟩

theorem decode_matches (hagree : js.Agrees pb) (buffer : Bytes) :
    Matches buffer (decodeAll pb buffer kDefaultMaxFrameLength)
      (decode js buffer) :=
  decodeLoop_matches hagree buffer buffer.length 0 [] [] .nil

/-- The same body is framed in the same way. -/
theorem encode_eq {envelope : Envelope} {object : EnvelopeObject} {body : Bytes}
    (hbody : pb.serialize envelope = some body) (hobject : js.encode object = body)
    (hlength : body.length < 2 ^ 32) :
    encode js object = .ok (MessageCodec.encode pb.serialize envelope) := by
  simp only [encode, MessageCodec.encode, writeUInt32BE, hbody, hobject,
    if_pos hlength, Nat.mod_eq_of_lt hlength]
  rfl

end Agreement

end ImProtocol

/-- The server's codec and the gateway's agree.  If `DecodeAll` ends without an
error, `decode` returns the same envelopes in the same order, and the bytes
after the consumed ones as the rest; if it ends with an error, `decode` raises
an exception.  Both frame the same body in the same way; protobuf serializes
less than two gigabytes. -/
theorem decoders_agree (pb : Protobuf) (js : Protobufjs)
    (hagree : js.Agrees pb)
    (hlimit : ∀ envelope body, pb.serialize envelope = some body →
      body.length < 2 ^ 31) :
    (∀ buffer,
      ((decodeAll pb buffer kDefaultMaxFrameLength).status = .ok ∨
        (decodeAll pb buffer kDefaultMaxFrameLength).status = .needMoreData →
        ∃ objects, ImProtocol.decode js buffer = .ok ⟨objects, buffer.drop
            (decodeAll pb buffer kDefaultMaxFrameLength).consumedBytes⟩ ∧
          List.Forall₂
            (fun object envelope => envelope.Exact → object = envelope.toObject)
            objects (decodeAll pb buffer kDefaultMaxFrameLength).envelopes) ∧
      ((decodeAll pb buffer kDefaultMaxFrameLength).status = .invalidLength ∨
        (decodeAll pb buffer kDefaultMaxFrameLength).status = .parseError →
        ∃ message, ImProtocol.decode js buffer = .error message)) ∧
    (∀ envelope object body, pb.serialize envelope = some body →
      js.encode object = body →
      ImProtocol.encode js object =
        .ok (MessageCodec.encode pb.serialize envelope)) := by
  constructor
  · intro buffer
    have hmatches := ImProtocol.decode_matches hagree buffer
    cases hdecode : ImProtocol.decode js buffer with
    | error message =>
        rw [hdecode] at hmatches
        refine ⟨fun hgood => ?_, fun _ => ⟨message, rfl⟩⟩
        rcases hmatches with hbad | hbad
        · simp [hbad] at hgood
        · simp [hbad] at hgood
    | ok decoded =>
        rw [hdecode] at hmatches
        obtain ⟨hgood, hrest, hsame⟩ := hmatches
        refine ⟨fun _ => ⟨decoded.envelopes, ?_, hsame⟩, fun hbad => ?_⟩
        · rw [← hrest]
        · rcases hgood with hgood | hgood
          · simp [hgood] at hbad
          · simp [hgood] at hbad
  · intro envelope object body hbody hobject
    have hshort := hlimit envelope body hbody
    exact ImProtocol.encode_eq hbody hobject (by omega)

/-- A login request, and what both libraries do with it. -/
def loginOne : Envelope :=
  { type := .loginReq, seq := 1, payload := some (.loginReq { uid := 1 }) }

def loginBody : Bytes :=
  [8, 1, 16, 1, 82, 2, 8, 1]

def loginProtobuf : Protobuf where
  serialize envelope := if envelope = loginOne then some loginBody else none
  parse body := if body = loginBody then some loginOne else none

def loginProtobufjs : Protobufjs where
  encode object := if object = loginOne.toObject then loginBody else []
  decode body :=
    if body = loginBody then .ok loginOne.toObject
    else .error (literal "index out of range")

/-- Two login requests, followed by the beginning of a header. -/
theorem decoders_agree_logins :
    (decodeAll loginProtobuf
        (([0, 0, 0, 8] ++ loginBody) ++ ([0, 0, 0, 8] ++ loginBody) ++ [0, 0])
        kDefaultMaxFrameLength).envelopes = [loginOne, loginOne] ∧
      ImProtocol.decode loginProtobufjs
        (([0, 0, 0, 8] ++ loginBody) ++ ([0, 0, 0, 8] ++ loginBody) ++ [0, 0]) =
          .ok ⟨[loginOne.toObject, loginOne.toObject], [0, 0]⟩ := by
  have hagree : loginProtobufjs.Agrees loginProtobuf := by
    constructor
    · intro body envelope hparse
      simp only [loginProtobuf] at hparse
      split at hparse
      · next hbody =>
          rw [Option.some.injEq] at hparse
          refine ⟨loginOne.toObject, ?_, fun _ => by rw [hparse]⟩
          simp only [loginProtobufjs, if_pos hbody]
      · cases hparse
    · intro body hparse
      simp only [loginProtobuf] at hparse
      split at hparse
      · cases hparse
      · next hbody =>
          refine ⟨literal "index out of range", ?_⟩
          simp only [loginProtobufjs, if_neg hbody]
  have hlimit : ∀ envelope body,
      loginProtobuf.serialize envelope = some body → body.length < 2 ^ 31 := by
    intro envelope body hbody
    simp only [loginProtobuf] at hbody
    split at hbody
    · rw [Option.some.injEq] at hbody
      rw [← hbody]
      decide
    · cases hbody
  obtain ⟨hgood, -⟩ := (decoders_agree loginProtobuf loginProtobufjs hagree
    hlimit).1 (([0, 0, 0, 8] ++ loginBody) ++ ([0, 0, 0, 8] ++ loginBody) ++
      [0, 0])
  obtain ⟨objects, hdecode, hsame⟩ := hgood (by decide)
  have hexact : loginOne.Exact := by
    intro n hn
    fin_cases hn
    all_goals decide
  have henvelopes : (decodeAll loginProtobuf
      (([0, 0, 0, 8] ++ loginBody) ++ ([0, 0, 0, 8] ++ loginBody) ++ [0, 0])
      kDefaultMaxFrameLength).envelopes = [loginOne, loginOne] := by
    decide
  refine ⟨henvelopes, ?_⟩
  rw [henvelopes, List.forall₂_cons_right_iff] at hsame
  obtain ⟨first, others, hfirst, hothers, rfl⟩ := hsame
  rw [List.forall₂_cons_right_iff] at hothers
  obtain ⟨second, none, hsecond, hnone, rfl⟩ := hothers
  rw [List.forall₂_nil_right_iff] at hnone
  rw [hdecode, hfirst hexact, hsecond hexact, hnone]
  rfl

end ReliableDelivery
