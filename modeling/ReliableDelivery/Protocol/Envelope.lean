import ReliableDelivery.Store.MessageStore

/-!
# Envelopes

The messages of `Message.proto` and the constructors of `EnvelopeFactory.h`.
An unset scalar field reads as its default, an unset message field as the
default message, and an enumeration keeps numbers it has no name for.
-/

namespace ReliableDelivery

open Decimal

inductive MessageType where
  | unknown
  | loginReq
  | loginResp
  | chatReq
  | chatPush
  | ack
  | heartbeat
  | unrecognized (n : ℤ)
  deriving DecidableEq, Repr

structure LoginRequest where
  uid : UInt64 := 0
  deriving DecidableEq, Repr

structure LoginResponse where
  ok : Bool := false
  reason : Bytes := []
  deriving DecidableEq, Repr

structure ChatRequest where
  fromUid : UInt64 := 0
  toUid : UInt64 := 0
  content : Bytes := []
  clientMsgId : Bytes := []
  deriving DecidableEq, Repr

structure ChatPush where
  msgId : UInt64 := 0
  fromUid : UInt64 := 0
  toUid : UInt64 := 0
  content : Bytes := []
  serverTimestampMs : UInt64 := 0
  history : Bool := false
  deriving DecidableEq, Repr

structure Ack where
  msgId : UInt64 := 0
  seq : UInt64 := 0
  ok : Bool := false
  reason : Bytes := []
  deriving DecidableEq, Repr

structure Heartbeat where
  uid : UInt64 := 0
  deriving DecidableEq, Repr

/-- The `oneof` of an envelope. -/
inductive Payload where
  | loginReq (request : LoginRequest)
  | loginResp (response : LoginResponse)
  | chatReq (request : ChatRequest)
  | chatPush (push : ChatPush)
  | ack (ack : Ack)
  | heartbeat (heartbeat : Heartbeat)
  deriving DecidableEq, Repr

/-- The common wrapper of all messages.  The type and the payload are set
independently of each other. -/
structure Envelope where
  type : MessageType := .unknown
  seq : UInt64 := 0
  timestampMs : UInt64 := 0
  payload : Option Payload := none
  deriving DecidableEq, Repr

namespace Envelope

/-- The login request, if the envelope has one. -/
def loginReq? (envelope : Envelope) : Option LoginRequest :=
  match envelope.payload with
  | some (.loginReq request) => some request
  | _ => none

def loginResp? (envelope : Envelope) : Option LoginResponse :=
  match envelope.payload with
  | some (.loginResp response) => some response
  | _ => none

def chatReq? (envelope : Envelope) : Option ChatRequest :=
  match envelope.payload with
  | some (.chatReq request) => some request
  | _ => none

def chatPush? (envelope : Envelope) : Option ChatPush :=
  match envelope.payload with
  | some (.chatPush push) => some push
  | _ => none

def ack? (envelope : Envelope) : Option Ack :=
  match envelope.payload with
  | some (.ack ack) => some ack
  | _ => none

theorem chatReq?_eq_some {envelope : Envelope} {request : ChatRequest} :
    envelope.chatReq? = some request ↔ envelope.payload = some (.chatReq request) := by
  unfold chatReq?
  split
  · next hpayload => simp [hpayload]
  · next hother => exact iff_of_false (by simp) (hother request)

theorem chatPush?_eq_some {envelope : Envelope} {push : ChatPush} :
    envelope.chatPush? = some push ↔ envelope.payload = some (.chatPush push) := by
  unfold chatPush?
  split
  · next hpayload => simp [hpayload]
  · next hother => exact iff_of_false (by simp) (hother push)

theorem ack?_eq_some {envelope : Envelope} {ack : Ack} :
    envelope.ack? = some ack ↔ envelope.payload = some (.ack ack) := by
  unfold ack?
  split
  · next hpayload => simp [hpayload]
  · next hother => exact iff_of_false (by simp) (hother ack)

end Envelope

/-! ## The factory

Each constructor stamps the envelope with the clock. -/

namespace EnvelopeFactory

open Clock

variable {m : Type → Type} [Monad m] [Clock m]

def createLoginRequest (seq uid : UInt64) : m Envelope := do
  let now ← nowMs
  pure { type := .loginReq, seq, timestampMs := now,
         payload := some (.loginReq { uid }) }

def createLoginResponse (seq : UInt64) (ok : Bool) (reason : Bytes) :
    m Envelope := do
  let now ← nowMs
  pure { type := .loginResp, seq, timestampMs := now,
         payload := some (.loginResp { ok, reason }) }

def createChatRequest (seq fromUid toUid : UInt64)
    (content clientMsgId : Bytes) : m Envelope := do
  let now ← nowMs
  pure { type := .chatReq, seq, timestampMs := now,
         payload := some (.chatReq { fromUid, toUid, content, clientMsgId }) }

/-- A push carries the given server time, or the clock if that is zero. -/
def createChatPush (seq msgId fromUid toUid : UInt64) (content : Bytes)
    (serverTimestampMs : UInt64) (history : Bool) : m Envelope := do
  let now ← nowMs
  let stamp ← if serverTimestampMs = 0 then nowMs else pure serverTimestampMs
  pure { type := .chatPush, seq, timestampMs := now,
         payload := some (.chatPush
           { msgId, fromUid, toUid, content, serverTimestampMs := stamp,
             history }) }

def createAck (seq msgId : UInt64) (ok : Bool) (reason : Bytes) :
    m Envelope := do
  let now ← nowMs
  pure { type := .ack, seq, timestampMs := now,
         payload := some (.ack { msgId, seq, ok, reason }) }

end EnvelopeFactory

end ReliableDelivery
