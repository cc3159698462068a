import ReliableDelivery.Store.Scripts
import ReliableDelivery.Support.Program

/-!
# The message store

The operations of `MessageStore.cpp`.  They run in any monad that can send
requests to Redis and read the clock: sequentially against one database, or as
the code of a server thread with other threads in between.  A request that got
no reply is answered by `none`.
-/

namespace ReliableDelivery

open Decimal Redis

/-- The millisecond clock. -/
class Clock (m : Type → Type) where
  nowMs : m UInt64

/-- What the store needs from its surroundings: `RedisClient::command` and the
clock. -/
class RedisClient (m : Type → Type) extends Clock m where
  command : RedisRequest → m (Option Reply)

open RedisClient Clock

namespace MessageStore

variable {m : Type → Type} [Monad m] [RedisClient m]

/-- What `createMessage` makes of the reply; failures leave `ok` false. -/
def readCreateReply : Option Reply → CreateMessageResult
  | none => {}
  | some (.error _) => {}
  | some reply => (buildCreateResult reply).getD {}

def createMessage (fromUid toUid : UInt64) (content clientMsgId : Bytes) :
    m CreateMessageResult := do
  let now ← nowMs
  let reply ← command
    (.evalCreateMessage fromUid toUid content clientMsgId now)
  pure (readCreateReply reply)

/-- The shared body of the status operations. -/
def evalMsgState (script : MsgStateScript) (msgId : UInt64) : m Bool := do
  let now ← nowMs
  let reply ← command (.evalMsgStateScript script msgId now)
  pure (replyIsTrue reply)

def markDelivered (msgId : UInt64) : m Bool :=
  evalMsgState .markDelivered msgId

def markPending (msgId : UInt64) : m Bool :=
  evalMsgState .markPending msgId

def markFailed (msgId : UInt64) : m Bool :=
  evalMsgState .markFailed msgId

def markAcked (msgId ackUid : UInt64) : m Bool := do
  let now ← nowMs
  let reply ← command (.evalMarkAckedScript msgId ackUid now)
  pure (replyIsTrue reply)

def incrementRetryCount (msgId : UInt64) : m Bool := do
  let reply ← command (.evalIncrementRetryScript msgId)
  pure (replyIsTrue reply)

/-- What `FetchRecord` makes of the reply. -/
def readRecordReply : Option Reply → Option MessageRecord
  | some (.array elements) =>
      if elements.length = 10 then buildRecordFromFields (.array elements) 0
      else none
  | _ => none

def fetchRecord (msgId : UInt64) : m (Option MessageRecord) :=
  if msgId = 0 then pure none
  else do
    let reply ← command (.hmgetRecord msgId)
    pure (readRecordReply reply)

def getMessage (msgId : UInt64) : m (Option MessageRecord) :=
  fetchRecord msgId

/-- Fetch the record an index element names, and keep it if it passes. -/
def fetchElement (keep : MessageRecord → Bool) (element : Reply) :
    m (Option MessageRecord) :=
  match parseUint64 element with
  | none => pure none
  | some msgId => do
      let record ← fetchRecord msgId
      pure (record.filter keep)

/-- The elements of an array reply; any other reply has none. -/
def replyElements : Option Reply → List Reply
  | some (.array elements) => elements
  | _ => []

/-- The index is read first; each record is then fetched and checked again. -/
def getPendingMessages (toUid : UInt64) : m (List MessageRecord) := do
  let reply ← command (.zrangePending toUid)
  collect (replyElements reply) (fetchElement fun record =>
    record.toUid = toUid && record.status = .pending)

def getRecentMessages (uid limit : UInt64) : m (List MessageRecord) :=
  if uid = 0 ∨ limit = 0 then pure []
  else do
    let reply ← command (.zrevrangeRecent uid (limit - 1))
    let result ← collect (replyElements reply) (fetchElement fun record =>
      record.fromUid = uid || record.toUid = uid)
    pure result.reverse

def getTimeoutDeliveredMessages (nowMs timeoutMs : UInt64) :
    m (List MessageRecord) := do
  let maxScore := if timeoutMs ≤ nowMs then nowMs - timeoutMs else 0
  let reply ← command (.zrangebyscoreTimeout maxScore)
  collect (replyElements reply) (fetchElement fun record =>
    record.status = .delivered && decide (0 < record.deliveredAtMs) &&
      decide (record.deliveredAtMs ≤ nowMs) &&
      decide (timeoutMs ≤ nowMs - record.deliveredAtMs))

end MessageStore

end ReliableDelivery
