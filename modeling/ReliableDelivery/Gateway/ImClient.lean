import ReliableDelivery.Gateway.ImProtocol
import ReliableDelivery.Support.Ecmascript

/-!
# Browser sessions and their connections to the server

`WsSession` and `ImClient` of the gateway.  Every browser session has a client
of its own, with one connection to the server, and the callbacks of the client
work on that session; the two are kept in one record here.
-/

namespace ReliableDelivery

open Decimal Ecmascript

/-- What the code is given by its surroundings: the conversions of the language,
`JSON.parse` of the bytes of a message (no value for bytes that are not JSON),
protobufjs, and how it writes and reads texts. -/
structure Runtime where
  engine : Engine
  parse : Bytes → Option Json
  protobufjs : Protobufjs
  utf8Write : Text → Bytes
  utf8Read : Bytes → Text

/-- `ws.readyState` of an accepted WebSocket. -/
inductive ReadyState where
  | open
  | closing
  | closed
  deriving DecidableEq, Repr

/-- The TCP socket: on its way to the server, open, destroyed with its close
event outstanding, and closed with the event delivered. -/
inductive SocketPhase where
  | connecting
  | open
  | destroyed
  | closed
  deriving DecidableEq, Repr

/-- Where `attachSession` stands: it awaits the login, the promise of the login
is settled, or it is through. -/
inductive Attach where
  | awaiting
  | resolved
  | rejected (reason : Text)
  | done
  deriving DecidableEq

/-- What is sent to the browser. -/
inductive BrowserFrame where
  | error (reason : Text)
  | pong
  | online (uid sessionId : ℕ)
  | sendAck (ok : Bool) (clientMsgId : Text) (msgId : ℕ) (reason : Text)
  | message (msgId fromUid toUid : ℕ) (content : Text)
      (serverTimestampMs : ℕ) (history : Bool)
  deriving DecidableEq

/-- The fields of `ImClient`.  `loginResolver` and `loginRejecter` are set and
cleared together. -/
structure ImClient where
  hasSocket : Bool := true
  connected : Bool := false
  nextSeq : ℕ := 1
  pendingSends : ℕ → Option Text := fun _ => none
  pushSeqByMsgId : ℕ → Option ℕ := fun _ => none
  recvBuffer : Bytes := []
  loginPending : Bool := true

/-- A browser session, from the moment `attachSession` awaits the login.
`registered` says that `imClientsBySessionId` has the client, and `written` is
what was written to the socket and not yet read by the server. -/
structure Session where
  uid : ℕ
  readyState : ReadyState := .open
  sent : List BrowserFrame := []
  registered : Bool := true
  client : ImClient := {}
  socket : SocketPhase := .connecting
  written : List EnvelopeObject := []
  attach : Attach := .awaiting

namespace Session

/-! ## The WebSocket -/

def isOpen (s : Session) : Bool :=
  s.readyState = .open

def sendJson (frame : BrowserFrame) : Js Session Unit :=
  modify fun s =>
    if s.isOpen then { s with sent := s.sent ++ [frame] } else s

/-- `ws.close` raises an exception when the reason is longer than a close frame
can carry. -/
def close (R : Runtime) (reason : Text) : Js Session Unit := do
  let s ← get
  if s.isOpen then
    set { s with readyState := .closing }
    if 123 < (R.utf8Write reason).length then
      throw ⟨ascii "The message must not be greater than 123 bytes"⟩

def modifyClient (f : ImClient → ImClient) : Js Session Unit :=
  modify fun s => { s with client := f s.client }

/-! ## Callbacks of the client -/

def forwardSendAck (clientMsgId : Text) (msgId : ℕ) (ok : Bool)
    (reason : Text) : Js Session Unit :=
  sendJson (.sendAck ok clientMsgId msgId reason)

def forwardChatPush (msgId fromUid toUid : ℕ) (content : Text)
    (serverTimestampMs : ℕ) (history : Bool) : Js Session Unit :=
  sendJson (.message msgId fromUid toUid content serverTimestampMs history)

def handleImClose (R : Runtime) (reason : Text) : Js Session Unit := do
  let s ← get
  if s.isOpen then
    sendJson (.error reason)
    close R reason

def handleImError (reason : Text) : Js Session Unit := do
  let s ← get
  if s.isOpen then sendJson (.error reason)

/-! ## Sending to the server -/

def sendEnvelope (R : Runtime) (envelope : EnvelopeObject) :
    Js Session Unit := do
  let s ← get
  if !s.client.connected || !s.client.hasSocket then
    throw ⟨ascii "IMServer connection is not ready"⟩
  match ImProtocol.encode R.protobufjs envelope with
  | .error message => throw ⟨R.utf8Read message⟩
  | .ok _ => set { s with written := s.written ++ [envelope] }

def allocateSeq : Js Session ℕ := do
  let s ← get
  set { s with client := { s.client with nextSeq := s.client.nextSeq + 1 } }
  pure s.client.nextSeq

def sendChat (R : Runtime) (now toUid : ℕ) (content clientMsgId : Text) :
    Js Session Unit := do
  let s ← get
  let seq ← allocateSeq
  modifyClient fun c =>
    { c with
      pendingSends := Function.update c.pendingSends seq (some clientMsgId) }
  sendEnvelope R
    { type := 3, seq, timestampMs := now,
      payload := some (.chatReq s.uid toUid (R.utf8Write content)
        (R.utf8Write clientMsgId)) }

/-- Acknowledge a push to the server; an unknown one is reported. -/
def ackMessage (R : Runtime) (now msgId : ℕ) : Js Session Bool := do
  let s ← get
  match s.client.pushSeqByMsgId msgId with
  | none => pure false
  | some seq =>
      modifyClient fun c =>
        { c with
          pushSeqByMsgId := Function.update c.pushSeqByMsgId msgId none }
      sendEnvelope R
        { type := 5, seq, timestampMs := now,
          payload := some (.ack msgId seq true []) }
      pure true

/-- `ImClient.close`.  A destroyed socket still delivers its close event. -/
def closeClient : Js Session Unit :=
  modify fun s =>
    if s.client.hasSocket then
      { s with
        client := { s.client with hasSocket := false, connected := false }
        socket :=
          if s.socket = .closed then .closed else .destroyed }
    else s

/-! ## Receiving from the server -/

/-- Settle the promise of the login, if it is pending. -/
def settleLogin (outcome : Attach) : Js Session Unit :=
  modify fun s =>
    if s.client.loginPending then
      { s with
        client := { s.client with loginPending := false }, attach := outcome }
    else s

def rejectPendingLogin (reason : Text) : Js Session Unit :=
  settleLogin (.rejected reason)

/-- A text, or another one in place of an empty text. -/
def orElse (text other : Text) : Text :=
  if text = [] then other else text

def handleLoginResponse (R : Runtime) (envelope : EnvelopeObject) :
    Js Session Unit :=
  match envelope.payload with
  | some (.loginResp true _) => settleLogin .resolved
  | some (.loginResp false reason) =>
      settleLogin (.rejected (orElse (R.utf8Read reason)
        (ascii "login rejected by IMServer")))
  | _ => settleLogin (.rejected (ascii "login rejected by IMServer"))

def handleAck (R : Runtime) (envelope : EnvelopeObject) : Js Session Unit := do
  let (msgId, seq, ok, reason) :=
    match envelope.payload with
    | some (.ack msgId seq ok reason) => (msgId, seq, ok, reason)
    | _ => (0, 0, false, [])
  let s ← get
  match s.client.pendingSends seq with
  | none => pure ()
  | some clientMsgId =>
      modifyClient fun c =>
        { c with pendingSends := Function.update c.pendingSends seq none }
      forwardSendAck clientMsgId msgId ok (R.utf8Read reason)

def handleChatPush (R : Runtime) (now : ℕ) (envelope : EnvelopeObject) :
    Js Session Unit := do
  let (msgId, fromUid, toUid, content, serverTimestampMs, history) :=
    match envelope.payload with
    | some (.chatPush msgId fromUid toUid content serverTimestampMs history) =>
        (msgId, fromUid, toUid, content, serverTimestampMs, history)
    | _ => (0, 0, 0, [], 0, false)
  if !history then
    modifyClient fun c =>
      { c with
        pushSeqByMsgId :=
          Function.update c.pushSeqByMsgId msgId (some envelope.seq) }
  forwardChatPush msgId fromUid toUid (R.utf8Read content)
    (if serverTimestampMs = 0 then now else serverTimestampMs) history

def handleEnvelope (R : Runtime) (now : ℕ) (envelope : EnvelopeObject) :
    Js Session Unit :=
  if envelope.type = 2 then handleLoginResponse R envelope
  else if envelope.type = 5 then handleAck R envelope
  else if envelope.type = 4 then handleChatPush R now envelope
  else pure ()

def handleEnvelopes (R : Runtime) (now : ℕ) :
    List EnvelopeObject → Js Session Unit
  | [] => pure ()
  | envelope :: envelopes => do
      handleEnvelope R now envelope
      handleEnvelopes R now envelopes

def handleError (reason : Text) : Js Session Unit := do
  rejectPendingLogin reason
  handleImError reason

def handleClose (R : Runtime) (reason : Text) : Js Session Unit := do
  modifyClient fun c => { c with connected := false }
  rejectPendingLogin reason
  handleImClose R reason

/-- A frame that cannot be decoded closes the client. -/
def handleData (R : Runtime) (now : ℕ) (chunk : Bytes) : Js Session Unit := do
  let s ← get
  let buffer := s.client.recvBuffer ++ chunk
  modifyClient fun c => { c with recvBuffer := buffer }
  match ImProtocol.decode R.protobufjs buffer with
  | .error message =>
      handleError (R.utf8Read message)
      closeClient
  | .ok decoded =>
      modifyClient fun c => { c with recvBuffer := decoded.rest }
      handleEnvelopes R now decoded.envelopes

/-- The connect event: ask the server to log the user in. -/
def handleConnect (R : Runtime) (now : ℕ) : Js Session Unit := do
  modifyClient fun c => { c with connected := true }
  let s ← get
  let seq ← allocateSeq
  sendEnvelope R
    { type := 1, seq, timestampMs := now, payload := some (.loginReq s.uid) }

end Session

end ReliableDelivery
