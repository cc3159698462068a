import ReliableDelivery.Store.Record

/-!
# The Redis side of the message store

The Lua scripts of `MessageStore.cpp`, command by command, and the requests the
store sends.  A script reads its `KEYS` and `ARGV` by position, starting at one,
and builds further keys by concatenation.  Lua numbers are rendered in plain
decimal.
-/

namespace ReliableDelivery

open Decimal Redis

/-- Lua's one-based access to `KEYS` and `ARGV`. -/
def luaAt (xs : List Bytes) (i : ℕ) : Bytes :=
  xs.getD (i - 1) []

@[simp] theorem luaAt_one (x : Bytes) (xs : List Bytes) : luaAt (x :: xs) 1 = x :=
  rfl

@[simp] theorem luaAt_succ (x : Bytes) (xs : List Bytes) (i : ℕ) :
    luaAt (x :: xs) (i + 2) = luaAt xs (i + 1) :=
  rfl

/-- A missing hash field is a nil reply. -/
def replyOfField : Option Bytes → Reply
  | some text => .bulk text
  | none => .nil

/-- The fields of a message hash, in the order in which records are read. -/
def recordFields : List Bytes :=
  [literal "msg_id", literal "from_uid", literal "to_uid", literal "content",
    literal "client_msg_id", literal "status", literal "created_at_ms",
    literal "delivered_at_ms", literal "acked_at_ms", literal "retry_count"]

/-- The part of the create script that allots an id and writes the message. -/
def createNewMessage (keys argv : ℕ → Bytes) : Script Reply := do
  let msgId ← incr (keys 2)
  let msgKey := argv 1 ++ renderInteger msgId
  set (keys 1) (renderInteger msgId)
  hset msgKey
    [(literal "msg_id", renderInteger msgId),
      (literal "from_uid", argv 2),
      (literal "to_uid", argv 3),
      (literal "content", argv 4),
      (literal "client_msg_id", argv 5),
      (literal "status", literal "Pending"),
      (literal "created_at_ms", argv 6),
      (literal "delivered_at_ms", literal "0"),
      (literal "acked_at_ms", literal "0"),
      (literal "retry_count", literal "0")]
  zadd (keys 3) (argv 6) (renderInteger msgId)
  zadd (keys 4) (argv 6) (renderInteger msgId)
  zadd (keys 5) (argv 6) (renderInteger msgId)
  pure (.array
    [.bulk (literal "1"), .bulk (renderInteger msgId), .bulk (argv 2),
      .bulk (argv 3), .bulk (argv 4), .bulk (argv 5), .bulk (literal "Pending"),
      .bulk (argv 6), .bulk (literal "0"), .bulk (literal "0"),
      .bulk (literal "0")])

/-- Idempotency check, id allotment, message hash and indexes in one script. -/
def kCreateMessageScript (keys argv : ℕ → Bytes) : Script Reply := do
  match ← get (keys 1) with
  | some msgId =>
      let msgKey := argv 1 ++ msgId
      if ← exists? msgKey then
        let fields ← hmget msgKey recordFields
        pure (.array (.bulk (literal "0") :: fields.map replyOfField))
      else
        createNewMessage keys argv
  | none => createNewMessage keys argv

/-- Leave the pending index and enter the timeout index. -/
def kMarkDeliveredScript (keys argv : ℕ → Bytes) : Script Reply := do
  match ← hget (keys 1) (literal "to_uid") with
  | none => pure (.integer 0)
  | some toUid =>
      hset (keys 1)
        [(literal "status", literal "Delivered"),
          (literal "delivered_at_ms", argv 2)]
      zrem (argv 3 ++ toUid) (argv 1)
      zadd (keys 2) (argv 2) (argv 1)
      pure (.integer 1)

/-- Return to the pending index, under the original creation time. -/
def kMarkPendingScript (keys argv : ℕ → Bytes) : Script Reply := do
  match ← hget (keys 1) (literal "to_uid") with
  | none => pure (.integer 0)
  | some toUid =>
      let created ← hget (keys 1) (literal "created_at_ms")
      let createdAtMs := created.getD (argv 2)
      hset (keys 1) [(literal "status", literal "Pending")]
      zrem (keys 2) (argv 1)
      zadd (argv 3 ++ toUid) createdAtMs (argv 1)
      pure (.integer 1)

/-- Enter the final state `Acked` if the acknowledging user is the receiver. -/
def kMarkAckedScript (keys argv : ℕ → Bytes) : Script Reply := do
  match ← hget (keys 1) (literal "to_uid") with
  | none => pure (.integer 0)
  | some toUid =>
      if toUid ≠ argv 2 then
        pure (.integer 0)
      else
        hset (keys 1)
          [(literal "status", literal "Acked"),
            (literal "acked_at_ms", argv 3)]
        zrem (keys 2) (argv 1)
        zrem (argv 4 ++ toUid) (argv 1)
        pure (.integer 1)

/-- Enter the final state `Failed` and leave both indexes. -/
def kMarkFailedScript (keys argv : ℕ → Bytes) : Script Reply := do
  match ← hget (keys 1) (literal "to_uid") with
  | none => pure (.integer 0)
  | some toUid =>
      hset (keys 1) [(literal "status", literal "Failed")]
      zrem (keys 2) (argv 1)
      zrem (argv 3 ++ toUid) (argv 1)
      pure (.integer 1)

def kIncrementRetryScript (keys : ℕ → Bytes) : Script Reply := do
  if ← exists? (keys 1) then
    let _ ← hincrby (keys 1) (literal "retry_count") 1
    pure (.integer 1)
  else
    pure (.integer 0)

/-! ## Requests -/

/-- The state scripts that share one layout of `KEYS` and `ARGV`. -/
inductive MsgStateScript where
  | markDelivered
  | markPending
  | markFailed
  deriving DecidableEq, Repr

def MsgStateScript.body : MsgStateScript →
    (ℕ → Bytes) → (ℕ → Bytes) → Script Reply
  | .markDelivered => kMarkDeliveredScript
  | .markPending => kMarkPendingScript
  | .markFailed => kMarkFailedScript

/-- One round trip to Redis. -/
inductive RedisRequest where
  | evalCreateMessage (fromUid toUid : UInt64) (content clientMsgId : Bytes)
      (createdAtMs : UInt64)
  | evalMsgStateScript (script : MsgStateScript) (msgId timestampMs : UInt64)
  | evalMarkAckedScript (msgId ackUid timestampMs : UInt64)
  | evalIncrementRetryScript (msgId : UInt64)
  | hmgetRecord (msgId : UInt64)
  | zrangePending (uid : UInt64)
  | zrevrangeRecent (uid stop : UInt64)
  | zrangebyscoreTimeout (maxScore : UInt64)
  deriving DecidableEq, Repr

def replyOfMembers (entries : List (ℕ × Bytes)) : Reply :=
  .array (entries.map fun e => .bulk e.2)

/-- `ZREVRANGE key 0 stop`; the index must fit Redis' signed integers. -/
def zrevrange (key : Bytes) (stop : UInt64) : Script Reply := do
  if (stop.toNat : ℤ) ≤ integerMax then
    let entries ← zentries key
    pure (replyOfMembers (entries.reverse.take (stop.toNat + 1)))
  else
    .fail .notAnInteger

/-- The keys and arguments of each request, and the script it runs. -/
def RedisRequest.script : RedisRequest → Script Reply
  | .evalCreateMessage fromUid toUid content clientMsgId createdAtMs =>
      kCreateMessageScript
        (luaAt [makeIdempotencyKey fromUid clientMsgId, kRedisMsgNextIdKey,
          makePendingKey toUid, makeRecentKey fromUid, makeRecentKey toUid])
        (luaAt [kRedisMsgKeyPrefix, toText fromUid, toText toUid, content,
          clientMsgId, toText createdAtMs])
  | .evalMsgStateScript script msgId timestampMs =>
      script.body
        (luaAt [makeMessageKey msgId, kRedisDeliveredTimeoutKey])
        (luaAt [toText msgId, toText timestampMs, kRedisPendingKeyPrefix])
  | .evalMarkAckedScript msgId ackUid timestampMs =>
      kMarkAckedScript
        (luaAt [makeMessageKey msgId, kRedisDeliveredTimeoutKey])
        (luaAt [toText msgId, toText ackUid, toText timestampMs,
          kRedisPendingKeyPrefix])
  | .evalIncrementRetryScript msgId =>
      kIncrementRetryScript (luaAt [makeMessageKey msgId])
  | .hmgetRecord msgId => do
      let fields ← hmget (makeMessageKey msgId) recordFields
      pure (.array (fields.map replyOfField))
  | .zrangePending uid => do
      let entries ← zentries (makePendingKey uid)
      pure (replyOfMembers entries)
  | .zrevrangeRecent uid stop => zrevrange (makeRecentKey uid) stop
  | .zrangebyscoreTimeout maxScore => do
      let entries ← zentries kRedisDeliveredTimeoutKey
      pure (replyOfMembers (entries.filter fun e => e.1 ≤ maxScore.toNat))

/-- Execute a request on the database. -/
def RedisRequest.run (request : RedisRequest) (db : Db) : Reply × Db :=
  eval request.script db

end ReliableDelivery
