import ReliableDelivery.Gateway.ImClient
import ReliableDelivery.Support.Driver

/-!
# The gateway

`GatewayWebSocketServer` and `WsSessionManager`.  The gateway runs on one event
loop: an event is handled to its end before the next one, and an exception that
no handler catches ends the process.  The runs are those of any browsers, any
server and any network.
-/

namespace ReliableDelivery

open Decimal Ecmascript TransitionSystem

/-! ## Messages from the browser -/

/-- The forms in which `ws` hands over a message. -/
inductive RawData where
  | buffer (data : Bytes)
  | arrayBuffer
  | fragments (parts : List Bytes)

/-- The properties of a message, if it is a JSON object. -/
abbrev BrowserMessage := List (Text × Json)

namespace Session

def parseMessage (R : Runtime) (data : RawData) : Option BrowserMessage :=
  let raw :=
    match data with
    | .buffer data => data
    | .arrayBuffer => literal "[object ArrayBuffer]"
    | .fragments parts => parts.flatten
  match R.parse raw with
  | some (.object properties) => some properties
  | _ => none

/-- The comparison with a text by `===`. -/
def isText (value : Option Json) (text : Text) : Bool :=
  match value with
  | some (.string text') => text' = text
  | _ => false

def refuse (clientMsgId reason : Text) : Js Session Unit :=
  sendJson (.sendAck false clientMsgId 0 reason)

def handleSendMessage (R : Runtime) (now : ℕ) (message : BrowserMessage) :
    Js Session Unit := do
  let s ← get
  let toUid ← Js.ofExcept
    (toNumber R.engine (property (ascii "to_uid") message))
  let content ← Js.ofExcept
    (toTextOrEmpty R.engine (property (ascii "content") message))
  let clientMsgId ← Js.ofExcept
    (toTextOrEmpty R.engine (property (ascii "client_msg_id") message))
  if s.registered = false then
    refuse clientMsgId (ascii "IMServer connection is not ready")
  else if toUid.isInteger = false ∨ toUid.nonpositive = true then
    refuse clientMsgId (ascii "invalid to_uid")
  else if trim content = [] then refuse clientMsgId (ascii "empty content")
  else if clientMsgId = [] then
    refuse clientMsgId (ascii "missing client_msg_id")
  else
    tryCatch (sendChat R now toUid.toNat (trim content) clientMsgId)
      fun error => refuse clientMsgId error.message

def handleMessageAck (R : Runtime) (now : ℕ) (message : BrowserMessage) :
    Js Session Unit := do
  let s ← get
  let msgId ← Js.ofExcept
    (toNumber R.engine (property (ascii "msg_id") message))
  if s.registered = false ∨ msgId.isInteger = false ∨
      msgId.nonpositive = true then
    pure ()
  else do
    let known ← ackMessage R now msgId.toNat
    if known = false then
      sendJson (.error
        (ascii "cannot ack unknown msg_id " ++ R.engine.numberToString msgId))

def handleMessage (R : Runtime) (now : ℕ) (data : RawData) : Js Session Unit :=
  match parseMessage R data with
  | none => sendJson (.error (ascii "invalid json message"))
  | some message =>
      if isText (property (ascii "type") message) (ascii "send_message") then
        handleSendMessage R now message
      else if
          isText (property (ascii "type") message) (ascii "message_ack") then
        handleMessageAck R now message
      else if isText (property (ascii "type") message) (ascii "ping") then
        sendJson .pong
      else sendJson (.error (ascii "unknown message type"))

end Session

/-! ## The table of sessions -/

/-- The gateway.  Sessions are numbered in the order in which they attach; the
number stands for the session's id, which is drawn at random, and in the tables
for the session itself. -/
structure GatewayState where
  sessions : ℕ → Option Session := fun _ => none
  sessionsByUid : ℕ → Option ℕ := fun _ => none
  sessionsById : ℕ → Option ℕ := fun _ => none
  nextSession : ℕ := 0
  crashed : Bool := false

namespace GatewayState

/-- Let the code of a session work on it. -/
def onSession (n : ℕ) (p : Js Session Unit) : Js GatewayState Unit := do
  let g ← get
  match g.sessions n with
  | none => pure ()
  | some s =>
      set { g with sessions := Function.update g.sessions n (p.exec s).2 }
      Js.ofExcept (p.exec s).1

/-- `WsSessionManager.remove`. -/
def remove (uid n : ℕ) : Js GatewayState Unit :=
  modify fun g =>
    { g with
      sessionsByUid :=
        if g.sessionsByUid uid = some n then
          Function.update g.sessionsByUid uid none
        else g.sessionsByUid
      sessionsById := Function.update g.sessionsById n none }

/-- `WsSessionManager.add`: a newer session replaces the one before. -/
def add (R : Runtime) (uid n : ℕ) : Js GatewayState Unit := do
  let g ← get
  match g.sessionsByUid uid with
  | none => pure ()
  | some old =>
      if old ≠ n then
        remove uid old
        onSession old (Session.close R (ascii "replaced by a newer session"))
  modify fun g =>
    { g with
      sessionsByUid := Function.update g.sessionsByUid uid (some n)
      sessionsById := Function.update g.sessionsById n (some n) }

def cleanupSession (uid n : ℕ) : Js GatewayState Unit := do
  remove uid n
  onSession n do
    let s ← get
    if s.registered then
      set { s with registered := false }
      Session.closeClient

/-- `attachSession` up to the point where it awaits the login. -/
def attachSession (uid : ℕ) : Js GatewayState Unit :=
  modify fun g =>
    { g with
      sessions := Function.update g.sessions g.nextSession (some { uid })
      nextSession := g.nextSession + 1 }

/-- `attachSession` after the login. -/
def resume (R : Runtime) (n : ℕ) (s : Session) : Js GatewayState Unit := do
  onSession n (modify fun s => { s with attach := .done })
  match s.attach with
  | .rejected reason =>
      onSession n (Session.sendJson (.error reason))
      onSession n (Session.close R reason)
      cleanupSession s.uid n
  | _ =>
      if s.isOpen = false then cleanupSession s.uid n
      else
        add R s.uid n
        onSession n (Session.sendJson (.online s.uid n))

end GatewayState

/-! ## Events -/

/-- What can happen to the gateway; `now` is what the clock shows. -/
inductive GatewayEvent where
  | attach (uid : ℕ)
  | imConnect (n now : ℕ)
  | imData (n now : ℕ) (chunk : Bytes)
  | imError (n : ℕ) (reason : Text)
  | imClose (n : ℕ)
  | wsMessage (n now : ℕ) (data : RawData)
  | wsClosing (n : ℕ)
  | wsError (n : ℕ)
  | wsClose (n : ℕ)
  | resume (n : ℕ)

/-- The session that the event is about. -/
def GatewayEvent.session : GatewayEvent → Option ℕ
  | .attach _ => none
  | .imConnect n _ => some n
  | .imData n _ _ => some n
  | .imError n _ => some n
  | .imClose n => some n
  | .wsMessage n _ _ => some n
  | .wsClosing n => some n
  | .wsError n => some n
  | .wsClose n => some n
  | .resume n => some n

/-- When an event can happen to a session.  A WebSocket delivers messages until
its close event, even after it was closed from this side. -/
def Session.enabled (s : Session) : GatewayEvent → Bool
  | .attach _ => false
  | .imConnect _ _ => s.socket = .connecting
  | .imData _ _ _ => s.socket = .open
  | .imError _ _ => s.socket = .connecting || s.socket = .open
  | .imClose _ => s.socket ≠ .closed
  | .wsMessage _ _ _ => s.readyState ≠ .closed
  | .wsClosing _ => s.readyState = .open
  | .wsError _ => s.readyState ≠ .closed
  | .wsClose _ => s.readyState ≠ .closed
  | .resume _ => s.attach ≠ .awaiting && s.attach ≠ .done

namespace GatewayState

/-- A session attaches for a user with a token, whose uid is positive. -/
def enabled (g : GatewayState) (event : GatewayEvent) : Bool :=
  match event with
  | .attach uid => 0 < uid
  | event =>
      (event.session.bind g.sessions).any fun s => s.enabled event

/-- The code that an event runs. -/
def handle (R : Runtime) (event : GatewayEvent) : Js GatewayState Unit := do
  let g ← get
  match event with
  | .attach uid => attachSession uid
  | .imConnect n now =>
      onSession n do
        modify fun s => { s with socket := .open }
        Session.handleConnect R now
  | .imData n now chunk => onSession n (Session.handleData R now chunk)
  | .imError n reason =>
      onSession n do
        modify fun s => { s with socket := .destroyed }
        Session.handleError reason
  | .imClose n =>
      onSession n do
        modify fun s => { s with socket := .closed }
        Session.handleClose R (ascii "IMServer connection closed")
  | .wsMessage n now data => onSession n (Session.handleMessage R now data)
  | .wsClosing n =>
      onSession n (modify fun s => { s with readyState := .closing })
  | .wsError n => do
      onSession n (modify fun s => { s with readyState := .closing })
      cleanupSession ((g.sessions n).elim 0 Session.uid) n
  | .wsClose n => do
      onSession n (modify fun s => { s with readyState := .closed })
      cleanupSession ((g.sessions n).elim 0 Session.uid) n
  | .resume n =>
      match g.sessions n with
      | none => pure ()
      | some s => resume R n s

/-- Handle an event; an exception that escapes ends the process. -/
def dispatch (R : Runtime) (g : GatewayState) (event : GatewayEvent) :
    GatewayState :=
  match (handle R event).exec g with
  | (.ok _, g') => g'
  | (.error _, g') => { g' with crashed := true }

end GatewayState

/-- All runs of the gateway. -/
def gateway (R : Runtime) : TransitionSystem GatewayState GatewayEvent where
  init g := g = {}
  step g event g' :=
    g.crashed = false ∧ g.enabled event = true ∧ g' = g.dispatch R event

abbrev GatewayRun (R : Runtime) := (gateway R).Execution

end ReliableDelivery
