import ReliableDelivery.Protocol.Codec
import ReliableDelivery.Server.UserState

/-!
# The handlers

`ServerEventDispatcher.cpp` as programs.  A command is one step that other
threads cannot interrupt: a round trip to Redis, an operation of the user state
service under its lock, a look at a connection, a frame handed to a connection,
or a reading of the clock.  Between two commands of a handler anything can
happen.
-/

namespace ReliableDelivery

open Decimal Redis MessageStore EnvelopeFactory

def kAckTimeoutMs : UInt64 := 10000

def kMaxDeliveryRetryCount : ℤ := 3

def kLoginRecentMessageLimit : UInt64 := 100

def kBusinessWorkerCount : ℕ := 8

/-- An event handed over by the network threads. -/
inductive ServerEvent where
  | envelope (conn : Conn) (envelope : Envelope)
  | connectionClosed (conn : Conn)
  deriving DecidableEq, Repr

inductive Command where
  | redis (request : RedisRequest)
  | nowMs
  | bindUser (conn : Conn) (uid : UInt64)
  | getUidByConn (conn : Conn)
  | getConnByUid (uid : UInt64)
  | updateHeartbeat (conn : Conn)
  | removeConnection (conn : Conn)
  | connected (conn : Conn)
  | sendEnvelope (conn : Conn) (envelope : Envelope)
  deriving DecidableEq, Repr

/-- The reply to a command.  Redis gives none when a call fails. -/
@[reducible] def Command.Answer : Command → Type
  | .redis _ => Option Reply
  | .nowMs => UInt64
  | .bindUser _ _ => Bool
  | .getUidByConn _ => UInt64
  | .getConnByUid _ => Option Conn
  | .updateHeartbeat _ => Unit
  | .removeConnection _ => Unit
  | .connected _ => Bool
  | .sendEnvelope _ _ => Unit

/-- Code of a server thread. -/
abbrev Handler := Program Command Command.Answer

namespace Handler

def nowMs : Handler UInt64 :=
  Program.perform Command.nowMs

def bindUser (conn : Conn) (uid : UInt64) : Handler Bool :=
  Program.perform (Command.bindUser conn uid)

def getUidByConn (conn : Conn) : Handler UInt64 :=
  Program.perform (Command.getUidByConn conn)

def getConnByUid (uid : UInt64) : Handler (Option Conn) :=
  Program.perform (Command.getConnByUid uid)

def connected (conn : Conn) : Handler Bool :=
  Program.perform (Command.connected conn)

end Handler

instance : RedisClient Handler where
  nowMs := Handler.nowMs
  command request := Program.perform (Command.redis request)

/-! ## Sending -/

def sendEnvelope (conn : Conn) (envelope : Envelope) : Handler Unit :=
  Program.perform (Command.sendEnvelope conn envelope)

def sendErrorAck (conn : Conn) (seq : UInt64) (reason : Bytes) :
    Handler Unit := do
  let ack ← createAck seq 0 false reason
  sendEnvelope conn ack

/-! ## Delivery -/

/-- The connection on which the user can be reached right now. -/
def onlineTarget (uid : UInt64) : Handler (Option Conn) := do
  let target ← Handler.getConnByUid uid
  match target with
  | none => pure none
  | some conn => do
      let connected ← Handler.connected conn
      pure (if connected then some conn else none)

/-- The push of a record; its sequence number is the message id. -/
def createRecordPush (record : MessageRecord) (history : Bool) :
    Handler Envelope :=
  createChatPush record.msgId record.msgId record.fromUid record.toUid
    record.content record.createdAtMs history

/-- Push first, mark afterwards. -/
def pushAndMark (conn : Conn) (record : MessageRecord) : Handler Bool := do
  let push ← createRecordPush record false
  sendEnvelope conn push
  let _ ← markDelivered record.msgId
  pure true

def tryDeliverMessage (record : MessageRecord) : Handler Bool :=
  if record.status = .acked ∨ record.status = .failed then pure false
  else do
    let target ← onlineTarget record.toUid
    match target with
    | none => do
        let _ ← markPending record.msgId
        pure false
    | some conn => pushAndMark conn record

def retryDeliverMessage (record : MessageRecord) : Handler Bool :=
  if record.status = .acked ∨ record.status = .failed then pure false
  else do
    let target ← onlineTarget record.toUid
    match target with
    | none => do
        let _ ← markPending record.msgId
        pure false
    | some conn => do
        let _ ← incrementRetryCount record.msgId
        pushAndMark conn record

/-- True if there was anything to deliver. -/
def deliverPendingMessages (uid : UInt64) : Handler Bool := do
  let pendingRecords ← getPendingMessages uid
  forEach pendingRecords fun record => do
    let _ ← tryDeliverMessage record
    pure ()
  pure (!pendingRecords.isEmpty)

def sendRecentMessages (uid limit : UInt64) : Handler Unit := do
  let recentRecords ← getRecentMessages uid limit
  let target ← onlineTarget uid
  match target with
  | none => pure ()
  | some conn =>
      forEach recentRecords fun record => do
        let push ← createRecordPush record true
        sendEnvelope conn push

/-- History is replayed only if nothing was pending. -/
def deliverLoginMessages (uid : UInt64) : Handler Unit := do
  let delivered ← deliverPendingMessages uid
  if delivered then pure ()
  else sendRecentMessages uid kLoginRecentMessageLimit

/-- One round of `deliveryLoop` over the messages whose acknowledgement is
overdue. -/
def deliveryScan : Handler Unit := do
  let now ← Handler.nowMs
  let timeoutRecords ← getTimeoutDeliveredMessages now kAckTimeoutMs
  forEach timeoutRecords fun record =>
    if kMaxDeliveryRetryCount ≤ record.retryCount then do
      let _ ← markFailed record.msgId
      pure ()
    else do
      let _ ← retryDeliverMessage record
      pure ()

/-! ## Events -/

/-- Log the connection in, if the request names a user. -/
def bindLogin (conn : Conn) (uid : UInt64) : Handler (Bool × Bytes) :=
  if uid = 0 then pure (false, literal "invalid login request")
  else do
    let bound ← Handler.bindUser conn uid
    pure (if bound then (true, []) else (false, literal "bind user failed"))

def handleLogin (conn : Conn) (envelope : Envelope) : Handler Unit := do
  let uid := (envelope.loginReq?.getD {}).uid
  let result ← bindLogin conn uid
  let response ← createLoginResponse envelope.seq result.1 result.2
  sendEnvelope conn response
  if result.1 then deliverLoginMessages uid else pure ()

/-- Answer a chat request whose sender has been checked. -/
def storeAndDeliver (conn : Conn) (seq : UInt64) (request : ChatRequest) :
    Handler Unit := do
  let result ← createMessage request.fromUid request.toUid request.content
    request.clientMsgId
  if result.ok = false then
    sendErrorAck conn seq (literal "message store unavailable")
  else if result.created = false then do
    let ack ← createAck seq result.record.msgId true
      (literal "duplicate message")
    sendEnvelope conn ack
  else do
    let _ ← tryDeliverMessage result.record
    let ack ← createAck seq result.record.msgId true []
    sendEnvelope conn ack

def handleChat (conn : Conn) (envelope : Envelope) : Handler Unit :=
  match envelope.chatReq? with
  | none => sendErrorAck conn envelope.seq (literal "invalid chat request")
  | some request => do
      let uid ← Handler.getUidByConn conn
      if uid = 0 then
        sendErrorAck conn envelope.seq (literal "please login first")
      else if request.fromUid ≠ uid then
        sendErrorAck conn envelope.seq
          (literal "from_uid does not match session")
      else storeAndDeliver conn envelope.seq request

/-- The script checks that the acknowledging user is the receiver. -/
def handleAck (conn : Conn) (envelope : Envelope) : Handler Unit :=
  match envelope.ack? with
  | none => pure ()
  | some ack =>
      if ack.msgId = 0 then pure ()
      else do
        let uid ← Handler.getUidByConn conn
        if uid = 0 then pure ()
        else do
          let _ ← markAcked ack.msgId uid
          pure ()

def handleHeartbeat (conn : Conn) : Handler Unit :=
  Program.perform (Command.updateHeartbeat conn)

def handleConnectionClosed (conn : Conn) : Handler Unit :=
  Program.perform (Command.removeConnection conn)

def handle : ServerEvent → Handler Unit
  | .connectionClosed conn => handleConnectionClosed conn
  | .envelope conn envelope =>
      match envelope.type with
      | .loginReq => handleLogin conn envelope
      | .chatReq => handleChat conn envelope
      | .ack => handleAck conn envelope
      | .heartbeat => handleHeartbeat conn
      | _ => sendErrorAck conn envelope.seq (literal "unsupported message type")

end ReliableDelivery
