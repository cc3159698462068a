import ReliableDelivery.Support.Redis

/-!
# Keys of the message store

The store builds its Redis keys as text.  This module models the key helpers of
`MessageStore.cpp` and shows that the flat key space behaves as separate maps:
`StoreKey` names each entry the store can touch, and its textual form is
injective.
-/

namespace ReliableDelivery

open Decimal

/-- `std::to_string` of a 64-bit unsigned integer. -/
def toText (n : UInt64) : Bytes :=
  render n.toNat

def kRedisMsgNextIdKey : Bytes := literal "rmd:msg:next_id"

def kRedisMsgKeyPrefix : Bytes := literal "rmd:msg:"

def kRedisPendingKeyPrefix : Bytes := literal "rmd:pending:"

def kRedisDeliveredTimeoutKey : Bytes := literal "rmd:delivered_timeout"

def makeClientMsgKey (fromUid : UInt64) (clientMsgId : Bytes) : Bytes :=
  toText fromUid ++ literal ":" ++ clientMsgId

def makeMessageKey (msgId : UInt64) : Bytes :=
  literal "rmd:msg:" ++ toText msgId

def makePendingKey (uid : UInt64) : Bytes :=
  literal "rmd:pending:" ++ toText uid

def makeRecentKey (uid : UInt64) : Bytes :=
  literal "rmd:recent:" ++ toText uid

def makeIdempotencyKey (fromUid : UInt64) (clientMsgId : Bytes) : Bytes :=
  literal "rmd:idem:" ++ makeClientMsgKey fromUid clientMsgId

/-- The message keys that the scripts build are those of the helper. -/
theorem msgKeyPrefix_append (msgId : UInt64) :
    kRedisMsgKeyPrefix ++ toText msgId = makeMessageKey msgId :=
  rfl

/-- The pending keys that the scripts build are those of the helper. -/
theorem pendingKeyPrefix_append (uid : UInt64) :
    kRedisPendingKeyPrefix ++ toText uid = makePendingKey uid :=
  rfl

theorem toText_injective : Function.Injective toText := by
  intro a b h
  exact UInt64.toNat_inj.mp (render_injective h)

@[simp] theorem toText_inj {a b : UInt64} : toText a = toText b ↔ a = b :=
  toText_injective.eq_iff

/-! ## The entries of the store -/

/-- The entries the store keeps in Redis. -/
inductive StoreKey where
  | nextId
  | message (msgId : UInt64)
  | pending (uid : UInt64)
  | recent (uid : UInt64)
  | idempotency (fromUid : UInt64) (clientMsgId : Bytes)
  | deliveredTimeout
  deriving DecidableEq

/-- The Redis key of an entry. -/
def StoreKey.text : StoreKey → Bytes
  | .nextId => kRedisMsgNextIdKey
  | .message msgId => makeMessageKey msgId
  | .pending uid => makePendingKey uid
  | .recent uid => makeRecentKey uid
  | .idempotency fromUid clientMsgId => makeIdempotencyKey fromUid clientMsgId
  | .deliveredTimeout => kRedisDeliveredTimeoutKey

theorem text_nextId : kRedisMsgNextIdKey = StoreKey.nextId.text := rfl

theorem text_message (msgId : UInt64) :
    makeMessageKey msgId = (StoreKey.message msgId).text := rfl

theorem text_pending (uid : UInt64) :
    makePendingKey uid = (StoreKey.pending uid).text := rfl

theorem text_recent (uid : UInt64) :
    makeRecentKey uid = (StoreKey.recent uid).text := rfl

theorem text_idempotency (fromUid : UInt64) (clientMsgId : Bytes) :
    makeIdempotencyKey fromUid clientMsgId =
      (StoreKey.idempotency fromUid clientMsgId).text := rfl

/-- A numeral does not begin with a letter, so `next_id` is no message id. -/
theorem toText_ne_letter {n : UInt64} {b : UInt8} {rest : Bytes}
    (hb : isDigit b = false) : toText n ≠ b :: rest := by
  intro h
  have hmem : b ∈ render n.toNat := by
    change render n.toNat = b :: rest at h
    simp [h]
  rw [isDigit_of_mem_render b hmem] at hb
  cases hb

theorem makeClientMsgKey_inj {f f' : UInt64} {c c' : Bytes} :
    makeClientMsgKey f c = makeClientMsgKey f' c' ↔ f = f' ∧ c = c' := by
  have hcolon : literal ":" = [58] := rfl
  simp only [makeClientMsgKey, toText, hcolon, List.append_assoc,
    List.singleton_append]
  rw [render_append_cons_inj (by decide), UInt64.toNat_inj]

/-- The byte after `rmd:`, which tells the kinds of entries apart. -/
def StoreKey.mark : StoreKey → UInt8
  | .nextId => 109
  | .message _ => 109
  | .pending _ => 112
  | .recent _ => 114
  | .idempotency _ _ => 105
  | .deliveredTimeout => 100

theorem StoreKey.text_mark (k : StoreKey) : k.text[4]? = some k.mark := by
  cases k <;> rfl

theorem makeMessageKey_ne_nextId (msgId : UInt64) :
    makeMessageKey msgId ≠ kRedisMsgNextIdKey := by
  intro h
  have hsplit : kRedisMsgNextIdKey = literal "rmd:msg:" ++ literal "next_id" :=
    rfl
  rw [makeMessageKey, hsplit, List.append_cancel_left_eq] at h
  exact toText_ne_letter (by decide) h

theorem StoreKey.text_injective : Function.Injective StoreKey.text := by
  intro k k' h
  have hmark : k.mark = k'.mark := by
    have hbyte := congrArg (fun text : Bytes => text[4]?) h
    simp only [StoreKey.text_mark, Option.some.injEq] at hbyte
    exact hbyte
  cases k with
  | nextId =>
      cases k' with
      | nextId => rfl
      | message msgId => exact absurd h.symm (makeMessageKey_ne_nextId msgId)
      | _ => exact absurd hmark (by simp [StoreKey.mark])
  | message msgId =>
      cases k' with
      | nextId => exact absurd h (makeMessageKey_ne_nextId msgId)
      | message msgId' =>
          have htext := List.append_cancel_left h
          rw [toText_injective htext]
      | _ => exact absurd hmark (by simp [StoreKey.mark])
  | pending uid =>
      cases k' with
      | pending uid' =>
          have htext := List.append_cancel_left h
          rw [toText_injective htext]
      | _ => exact absurd hmark (by simp [StoreKey.mark])
  | recent uid =>
      cases k' with
      | recent uid' =>
          have htext := List.append_cancel_left h
          rw [toText_injective htext]
      | _ => exact absurd hmark (by simp [StoreKey.mark])
  | idempotency fromUid clientMsgId =>
      cases k' with
      | idempotency fromUid' clientMsgId' =>
          have htext := List.append_cancel_left h
          obtain ⟨rfl, rfl⟩ := makeClientMsgKey_inj.mp htext
          rfl
      | _ => exact absurd hmark (by simp [StoreKey.mark])
  | deliveredTimeout =>
      cases k' with
      | deliveredTimeout => rfl
      | _ => exact absurd hmark (by simp [StoreKey.mark])

@[simp] theorem StoreKey.text_inj {k k' : StoreKey} :
    k.text = k'.text ↔ k = k' :=
  StoreKey.text_injective.eq_iff

/-- The database seen through the entries of the store. -/
def entriesOf (db : Redis.Db) : StoreKey → Option Redis.Value :=
  fun k => db k.text

@[simp] theorem entriesOf_update (db : Redis.Db) (k : StoreKey)
    (v : Option Redis.Value) :
    entriesOf (Function.update db k.text v) =
      Function.update (entriesOf db) k v := by
  funext k'
  by_cases hk : k' = k
  · subst hk
    simp [entriesOf]
  · simp [entriesOf, Function.update_of_ne, hk]

end ReliableDelivery
