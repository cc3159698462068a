import Mathlib.Data.Nat.Log
import ReliableDelivery.Protocol.Envelope

/-!
# The proto3 wire format

What protobuf's generated code writes for an envelope: fields in the order of
their numbers, each with a tag, numbers as variable-length integers, texts and
messages with their length.  A scalar field with its default value is left out;
the member of the `oneof` that is set is always written.
-/

namespace ReliableDelivery

open Decimal

namespace Wire

/-- Base 128, least significant group first; `fuel` bounds the groups. -/
def varintGroups : (fuel n : ℕ) → Bytes
  | 0, _ => []
  | fuel + 1, n =>
      if n < 128 then [UInt8.ofNat n]
      else UInt8.ofNat (128 + n % 128) :: varintGroups fuel (n / 128)

/-- A 64-bit integer takes at most ten groups. -/
def varint (n : ℕ) : Bytes :=
  varintGroups 10 n

def tag (field wireType : ℕ) : Bytes :=
  varint (field * 8 + wireType)

def uint64Field (field : ℕ) (n : UInt64) : Bytes :=
  if n = 0 then [] else tag field 0 ++ varint n.toNat

def boolField (field : ℕ) (b : Bool) : Bytes :=
  if b then tag field 0 ++ varint 1 else []

/-- An enumeration is written as a 64-bit integer in two's complement. -/
def enumField (field : ℕ) (n : ℤ) : Bytes :=
  if n = 0 then [] else tag field 0 ++ varint (n % 2 ^ 64).toNat

def messageField (field : ℕ) (body : Bytes) : Bytes :=
  tag field 2 ++ varint body.length ++ body

def stringField (field : ℕ) (text : Bytes) : Bytes :=
  if text = [] then [] else messageField field text

end Wire

open Wire

def MessageType.number : MessageType → ℤ
  | .unknown => 0
  | .loginReq => 1
  | .loginResp => 2
  | .chatReq => 3
  | .chatPush => 4
  | .ack => 5
  | .heartbeat => 6
  | .unrecognized n => n

def Payload.wire : Payload → Bytes
  | .loginReq request => messageField 10 (uint64Field 1 request.uid)
  | .loginResp response =>
      messageField 11 (boolField 1 response.ok ++ stringField 2 response.reason)
  | .chatReq request =>
      messageField 12 (uint64Field 1 request.fromUid ++
        uint64Field 2 request.toUid ++ stringField 3 request.content ++
        stringField 4 request.clientMsgId)
  | .chatPush push =>
      messageField 13 (uint64Field 1 push.msgId ++
        uint64Field 2 push.fromUid ++ uint64Field 3 push.toUid ++
        stringField 4 push.content ++ uint64Field 5 push.serverTimestampMs ++
        boolField 6 push.history)
  | .ack a =>
      messageField 14 (uint64Field 1 a.msgId ++ uint64Field 2 a.seq ++
        boolField 3 a.ok ++ stringField 4 a.reason)
  | .heartbeat h => messageField 15 (uint64Field 1 h.uid)

def Envelope.wire (envelope : Envelope) : Bytes :=
  enumField 1 envelope.type.number ++ uint64Field 2 envelope.seq ++
    uint64Field 3 envelope.timestampMs ++
    (envelope.payload.map Payload.wire).getD []

/-- Messages of two gigabytes and more are refused. -/
def Envelope.serializeToString (envelope : Envelope) : Option Bytes :=
  if envelope.wire.length < 2 ^ 31 then some envelope.wire else none

/-! ## Sizes -/

namespace Wire

/-- The bytes of a variable-length integer, seven bits each. -/
def varintSize (n : ℕ) : ℕ :=
  Nat.log 2 n / 7 + 1

/-- The bytes of a number field with a tag of one byte. -/
def numberSize (n : UInt64) : ℕ :=
  if n = 0 then 0 else 1 + varintSize n.toNat

/-- The bytes of a text or message field with a tag of one byte. -/
def messageSize (n : ℕ) : ℕ :=
  1 + varintSize n + n

theorem varintSize_of_lt {n : ℕ} (h : n < 128) : varintSize n = 1 := by
  have hlog : Nat.log 2 n < 7 := by
    apply Nat.log_lt_of_lt_pow'
    · decide
    · exact h
  rw [varintSize, Nat.div_eq_of_lt hlog]

theorem varintSize_of_le {n : ℕ} (h : 128 ≤ n) :
    varintSize n = 1 + varintSize (n / 128) := by
  have hlog : 7 ≤ Nat.log 2 n := Nat.le_log_of_pow_le (by decide) h
  have hdiv : Nat.log 2 (n / 128) = Nat.log 2 n - 7 :=
    Nat.log_div_base_pow 2 n 7
  rw [varintSize, varintSize, hdiv]
  omega

theorem varintSize_le {n : ℕ} (h : n < 2 ^ 64) : varintSize n ≤ 10 := by
  have hlog : Nat.log 2 n < 64 := Nat.log_lt_of_lt_pow' (by decide) h
  rw [varintSize]
  omega

theorem numberSize_le (n : UInt64) : numberSize n ≤ 11 := by
  have hsize := varintSize_le n.toNat_lt
  rw [numberSize]
  split
  · omega
  · omega

theorem length_varintGroups {fuel n : ℕ} (h : n < 128 ^ (fuel + 1)) :
    (varintGroups (fuel + 1) n).length = varintSize n := by
  induction fuel generalizing n with
  | zero =>
      have hn : n < 128 := by simpa using h
      rw [varintGroups, if_pos hn, varintSize_of_lt hn]
      rfl
  | succ fuel ih =>
      rw [varintGroups]
      split
      · next hn =>
          rw [varintSize_of_lt hn]
          rfl
      · next hn =>
          have hdiv : n / 128 < 128 ^ (fuel + 1) := by
            rw [Nat.div_lt_iff_lt_mul (by decide)]
            exact h
          rw [List.length_cons, ih hdiv, varintSize_of_le (n := n) (by omega)]
          omega

theorem length_varint {n : ℕ} (h : n < 2 ^ 64) :
    (varint n).length = varintSize n := by
  apply length_varintGroups
  exact lt_trans h (by decide)

theorem length_tag {field wireType : ℕ} (h : field * 8 + wireType < 128) :
    (tag field wireType).length = 1 := by
  rw [tag, length_varint (by omega), varintSize_of_lt h]

theorem length_uint64Field {field : ℕ} (h : field ≤ 15) (n : UInt64) :
    (uint64Field field n).length = numberSize n := by
  rw [uint64Field, numberSize]
  split
  · rfl
  · rw [List.length_append, length_tag (by omega), length_varint n.toNat_lt]

theorem length_boolField {field : ℕ} (h : field ≤ 15) (b : Bool) :
    (boolField field b).length = if b then 2 else 0 := by
  rw [boolField]
  split
  · rw [List.length_append, length_tag (by omega)]
    rfl
  · rfl

theorem length_messageField {field : ℕ} (h : field ≤ 15) {body : Bytes}
    (hbody : body.length < 2 ^ 64) :
    (messageField field body).length = messageSize body.length := by
  rw [messageField, List.length_append, List.length_append,
    length_tag (by omega), length_varint hbody, messageSize]

theorem length_stringField {field : ℕ} (h : field ≤ 15) {text : Bytes}
    (htext : text.length < 2 ^ 64) :
    (stringField field text).length =
      if text = [] then 0 else messageSize text.length := by
  rw [stringField]
  split
  · rfl
  · exact length_messageField h htext

end Wire

end ReliableDelivery
