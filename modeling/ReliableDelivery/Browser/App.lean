import ReliableDelivery.Gateway.ImClient
import ReliableDelivery.Support.Driver

/-!
# The page

`app.js`, the page that the gateway serves.  The page runs on one event loop.  Its
`state` is kept in one record; the objects of the messages are numbered, since a
message can be changed after the list it was put in is gone.  What is only drawn,
such as the status lines and the timer that delays the drawing, is left out.
-/

namespace ReliableDelivery

open Ecmascript TransitionSystem

/-- A text of characters that take one code unit each. -/
def textOf (s : String) : Text :=
  s.toList.map fun c => UInt16.ofNat c.toNat

def parsePositiveInteger (number : Number) : Option ℕ :=
  if number.isInteger && !number.nonpositive then some number.toNat else none

def MESSAGE_PAGE_SIZE : ℕ := 100

/-- `ws.readyState` of the page's WebSocket. -/
inductive PageSocket where
  | connecting
  | open
  | closing
  | closed
  deriving DecidableEq, Repr

inductive Direction where
  | outgoing
  | incoming
  | system
  deriving DecidableEq, Inhabited

inductive Status where
  | sending
  | sent
  | failed
  | received
  | history
  | notice
  deriving DecidableEq, Inhabited

/-- A message as the page shows it. -/
structure ShownMessage where
  direction : Direction
  clientMsgId : Option Text := none
  msgId : Option ℕ := none
  fromUid : Option ℕ := none
  toUid : Option ℕ := none
  content : Text
  status : Status
  createdAtMs : ℕ
  reason : Text := []
  deriving DecidableEq, Inhabited

/-- `messages` has the numbers of the messages.  The `peerUid` of a conversation is
its key in the map and never changes. -/
structure Conversation where
  messages : List ℕ := []
  unread : ℕ := 0
  lastMessage : Text
  lastAtMs : ℕ
  visibleMessageCount : ℕ := 0

/-- A message that waits for its `send_ack`. -/
structure PendingMessage where
  peerUid : ℕ
  message : ℕ

/-- What the page sends. -/
inductive PageFrame where
  | sendMessage (toUid : ℕ) (content clientMsgId : Text)
  | messageAck (msgId : ℕ)
  deriving DecidableEq

/-- What the page receives: text that is not JSON, what the gateway sends, and
messages of another type. -/
inductive ServerMessage where
  | unparsable
  | frame (frame : BrowserFrame)
  | unknown (type : Text)

/-- `state`.  `object` has the messages, with the numbers below `nextObject`. -/
structure AppState where
  uid : Option ℕ := none
  ws : Option PageSocket := none
  sent : List PageFrame := []
  connected : Bool := false
  activePeerUid : Option ℕ := none
  conversations : ℕ → Option Conversation := fun _ => none
  pendingByClientMsgId : Text → Option PendingMessage := fun _ => none
  renderedMessageIds : Finset ℕ := ∅
  object : ℕ → ShownMessage := fun _ => default
  nextObject : ℕ := 0

/-! ## The visible part of a conversation -/

namespace Conversation

def getVisibleMessageCount (conversation : Conversation) : ℕ :=
  min conversation.messages.length conversation.visibleMessageCount

/-- The last messages, which are drawn. -/
def getVisibleMessages (conversation : Conversation) : List ℕ :=
  conversation.messages.drop
    (conversation.messages.length - conversation.getVisibleMessageCount)

def resetVisibleMessageWindow (conversation : Conversation) : Conversation :=
  { conversation with
    visibleMessageCount :=
      min conversation.messages.length MESSAGE_PAGE_SIZE }

def updateVisibleWindowAfterAppend (keepTopMessageVisible : Bool)
    (conversation : Conversation) : Conversation :=
  let visibleCount := conversation.getVisibleMessageCount
  if keepTopMessageVisible then
    { conversation with
      visibleMessageCount :=
        min conversation.messages.length (visibleCount + 1) }
  else if visibleCount = 0 then conversation.resetVisibleMessageWindow
  else conversation

end Conversation

namespace AppState

/-! ## Conversations -/

def addConversation (now peerUid : ℕ) (state : AppState) : AppState :=
  match state.conversations peerUid with
  | some _ => state
  | none =>
      { state with
        conversations := Function.update state.conversations peerUid
          (some { lastMessage := textOf "新会话", lastAtMs := now }) }

/-- The active conversation, with its `peerUid`. -/
def getActiveConversation (state : AppState) : Option (ℕ × Conversation) :=
  state.activePeerUid.bind fun peerUid =>
    (state.conversations peerUid).map fun conversation => (peerUid, conversation)

/-- Work on a conversation of the map. -/
def modifyConversation (peerUid : ℕ) (f : Conversation → Conversation)
    (state : AppState) : AppState :=
  { state with
    conversations := Function.update state.conversations peerUid
      ((state.conversations peerUid).map f) }

/-- Put a new message at the end of a conversation. -/
def pushMessage (peerUid : ℕ) (message : ShownMessage) (state : AppState) :
    AppState :=
  let number := state.nextObject
  { state.modifyConversation peerUid fun conversation =>
      { conversation with
        messages := conversation.messages ++ [number]
        lastMessage := message.content
        lastAtMs := message.createdAtMs } with
    object := Function.update state.object number message
    nextObject := number + 1 }

/-- `nearBottom` says that the message list is scrolled to its bottom. -/
def addSystemMessageToConversation (now : ℕ) (nearBottom : Bool) (peerUid : ℕ)
    (content : Text) (state : AppState) : AppState :=
  let state := state.addConversation now peerUid
  let isActiveConversation := state.activePeerUid = some peerUid
  let shouldScrollToBottom := isActiveConversation && nearBottom
  (state.pushMessage peerUid
      { direction := .system, content, status := .notice, createdAtMs := now })
    |>.modifyConversation peerUid (Conversation.updateVisibleWindowAfterAppend
      (isActiveConversation && !shouldScrollToBottom))

/-- Without an active conversation the text is only shown. -/
def addSystemMessageToActive (now : ℕ) (nearBottom : Bool) (content : Text)
    (state : AppState) : AppState :=
  match state.getActiveConversation with
  | none => state
  | some (peerUid, _) =>
      if peerUid = 0 then state
      else
        state.addSystemMessageToConversation now nearBottom peerUid content

def selectConversation (now peerUid : ℕ) (state : AppState) : AppState :=
  let state := state.addConversation now peerUid
  { state with activePeerUid := some peerUid }
    |>.modifyConversation peerUid fun conversation =>
      { conversation with unread := 0 }.resetVisibleMessageWindow

/-- The button that clears the active conversation. -/
def clearMessages (state : AppState) : AppState :=
  match state.getActiveConversation with
  | none => state
  | some (peerUid, _) =>
      state.modifyConversation peerUid fun conversation =>
        { conversation with
          messages := [], unread := 0, visibleMessageCount := 0 }

def loadOlderMessages (state : AppState) : AppState :=
  match state.getActiveConversation with
  | none => state
  | some (peerUid, conversation) =>
      if peerUid = 0 ∨ conversation.messages.length ≤
          conversation.getVisibleMessageCount then state
      else
        state.modifyConversation peerUid fun conversation =>
          { conversation with
            visibleMessageCount := min conversation.messages.length
              (conversation.getVisibleMessageCount + MESSAGE_PAGE_SIZE) }

/-- The form for a new conversation, with what is entered in it. -/
def newChat (engine : Engine) (now : ℕ) (nearBottom : Bool) (value : Text)
    (state : AppState) : AppState :=
  match parsePositiveInteger (engine.stringToNumber value) with
  | none =>
      state.addSystemMessageToActive now nearBottom
        (textOf "目标 UID 必须是正整数")
  | some peerUid =>
      let state :=
        if state.uid = some peerUid then
          (state.addConversation now peerUid).addSystemMessageToConversation now
            nearBottom peerUid
            (textOf "这是你自己的 UID，第一版可以保留用于本地测试。")
        else state
      state.selectConversation now peerUid

/-! ## Messages -/

def isSocketOpen (state : AppState) : Bool :=
  state.ws = some .open

def sendFrame (frame : PageFrame) (state : AppState) : AppState :=
  { state with sent := state.sent ++ [frame] }

def sendMessageAck (msgId : Option ℕ) (state : AppState) : AppState :=
  match msgId with
  | none => state
  | some msgId =>
      if state.isSocketOpen then state.sendFrame (.messageAck msgId) else state

/-- `value` is what is entered, and `clientMsgId` what `makeClientMsgId` draws. -/
def sendMessage (now : ℕ) (nearBottom : Bool) (value clientMsgId : Text)
    (state : AppState) : AppState :=
  match state.getActiveConversation with
  | none => state.addSystemMessageToActive now nearBottom (textOf "请先选择聊天对象")
  | some (peerUid, _) =>
      if !state.connected || !state.isSocketOpen then
        state.addSystemMessageToConversation now nearBottom peerUid
          (textOf "WebSocket 未在线，无法发送")
      else if trim value = [] then state
      else
        { (state.pushMessage peerUid
            { direction := .outgoing, clientMsgId := some clientMsgId
              fromUid := state.uid, toUid := some peerUid
              content := trim value, status := .sending
              createdAtMs := now }).modifyConversation peerUid
            Conversation.resetVisibleMessageWindow with
          pendingByClientMsgId := Function.update
            state.pendingByClientMsgId clientMsgId
            (some { peerUid, message := state.nextObject }) }
          |>.sendFrame (.sendMessage peerUid (trim value) clientMsgId)

def applySendAck (now : ℕ) (nearBottom ok : Bool) (clientMsgId : Text)
    (msgId : ℕ) (reason : Text) (state : AppState) : AppState :=
  match state.pendingByClientMsgId clientMsgId with
  | none =>
      state.addSystemMessageToActive now nearBottom
        (textOf "收到未匹配的 send_ack: " ++
          if clientMsgId = [] then textOf "-" else clientMsgId)
  | some pending =>
      let msgId := parsePositiveInteger (.ofNat msgId)
      { state with
        object := Function.update state.object pending.message
          { state.object pending.message with
            msgId, status := if ok then .sent else .failed, reason }
        renderedMessageIds :=
          if ok then state.renderedMessageIds ∪ msgId.toFinset
          else state.renderedMessageIds
        pendingByClientMsgId :=
          Function.update state.pendingByClientMsgId clientMsgId none }

def appendIncomingMessage (now : ℕ) (nearBottom : Bool) (msgId : Option ℕ)
    (fromUid toUid : ℕ) (content : Text) (serverTimestampMs : ℕ)
    (history : Bool) (state : AppState) : AppState :=
  let toUid := if toUid = 0 then state.uid.getD 0 else toUid
  let peerUid := if state.uid = some fromUid then toUid else fromUid
  let state := state.addConversation now peerUid
  let isActiveConversation := state.activePeerUid = some peerUid
  let shouldScrollToBottom := isActiveConversation && nearBottom
  (state.pushMessage peerUid
      { direction :=
          if state.uid = some fromUid then .outgoing else .incoming
        msgId, fromUid := some fromUid, toUid := some toUid, content
        status := if history then .history else .received
        createdAtMs :=
          if serverTimestampMs = 0 then now else serverTimestampMs })
    |>.modifyConversation peerUid fun conversation =>
      let conversation := conversation.updateVisibleWindowAfterAppend
        (isActiveConversation && !shouldScrollToBottom)
      if !isActiveConversation && !history then
        { conversation with unread := conversation.unread + 1 }
      else conversation

/-- A message that was rendered is acknowledged again, but not shown again. -/
def handleIncomingMessage (now : ℕ) (nearBottom : Bool) (msgId fromUid toUid : ℕ)
    (content : Text) (serverTimestampMs : ℕ) (history : Bool)
    (state : AppState) : AppState :=
  let msgId := parsePositiveInteger (.ofNat msgId)
  let state := if history then state else state.sendMessageAck msgId
  if msgId.any fun msgId => msgId ∈ state.renderedMessageIds then state
  else
    { state with
      renderedMessageIds := state.renderedMessageIds ∪ msgId.toFinset }
      |>.appendIncomingMessage now nearBottom msgId fromUid toUid content
        serverTimestampMs history

def handleServerMessage (now : ℕ) (nearBottom : Bool) (message : ServerMessage)
    (state : AppState) : AppState :=
  match message with
  | .unparsable =>
      state.addSystemMessageToActive now nearBottom
        (textOf "收到无法解析的消息")
  | .frame (.online uid _) =>
      { state with
        connected := true
        uid := some (if uid = 0 then state.uid.getD 0 else uid) }
  | .frame (.sendAck ok clientMsgId msgId reason) =>
      state.applySendAck now nearBottom ok clientMsgId msgId reason
  | .frame (.message msgId fromUid toUid content serverTimestampMs history) =>
      state.handleIncomingMessage now nearBottom msgId fromUid toUid content
        serverTimestampMs history
  | .frame (.error reason) =>
      state.addSystemMessageToActive now nearBottom
        (if reason = [] then textOf "服务端返回错误" else reason)
  | .frame .pong => state
  | .unknown type =>
      state.addSystemMessageToActive now nearBottom
        (textOf "未知消息类型: " ++
          if type = [] then textOf "unknown" else type)

/-! ## Logging in and out -/

def closeWebSocket (state : AppState) : AppState :=
  { state with ws := none, connected := false }

def connectWebSocket (state : AppState) : AppState :=
  { state.closeWebSocket with ws := some .connecting, connected := false }

def resetChatState (state : AppState) : AppState :=
  { state with
    uid := none
    connected := false
    activePeerUid := none
    conversations := fun _ => none
    pendingByClientMsgId := fun _ => none
    renderedMessageIds := ∅ }

/-- `login`, when the request succeeded. -/
def login (uid : ℕ) (state : AppState) : AppState :=
  { state.resetChatState with uid := some uid }.connectWebSocket

def logout (state : AppState) : AppState :=
  state.closeWebSocket.resetChatState

end AppState

/-! ## Events -/

/-- What can happen to the page; `now` is what the clock shows. -/
inductive AppEvent where
  | login (uid : ℕ)
  | loginFailed
  | logout
  | wsOpen
  | wsMessage (now : ℕ) (nearBottom : Bool) (message : ServerMessage)
  | wsClosing
  | wsClose
  | newChat (now : ℕ) (nearBottom : Bool) (value : Text)
  | selectConversation (now peerUid : ℕ)
  | sendMessage (now : ℕ) (nearBottom : Bool) (value clientMsgId : Text)
  | clearMessages
  | loadOlderMessages

namespace AppState

/-- A WebSocket delivers messages while it is open. -/
def enabled (state : AppState) : AppEvent → Bool
  | .wsOpen => state.ws = some .connecting
  | .wsMessage _ _ _ => state.isSocketOpen
  | .wsClosing => state.isSocketOpen
  | .wsClose => state.ws.isSome && state.ws ≠ some .closed
  | .selectConversation _ peerUid => (state.conversations peerUid).isSome
  | _ => true

def handle (engine : Engine) (event : AppEvent) (state : AppState) : AppState :=
  match event with
  | .login uid => state.login uid
  | .loginFailed => state.closeWebSocket
  | .logout => state.logout
  | .wsOpen => { state with ws := some .open }
  | .wsMessage now nearBottom message =>
      state.handleServerMessage now nearBottom message
  | .wsClosing => { state with ws := some .closing }
  | .wsClose => { state with ws := some .closed, connected := false }
  | .newChat now nearBottom value => state.newChat engine now nearBottom value
  | .selectConversation now peerUid => state.selectConversation now peerUid
  | .sendMessage now nearBottom value clientMsgId =>
      state.sendMessage now nearBottom value clientMsgId
  | .clearMessages => state.clearMessages
  | .loadOlderMessages => state.loadOlderMessages

end AppState

/-- All runs of the page, with any gateway. -/
def app (engine : Engine) : TransitionSystem AppState AppEvent where
  init state := state = {}
  step state event state' :=
    state.enabled event = true ∧ state' = state.handle engine event

abbrev AppRun (engine : Engine) := (app engine).Execution

end ReliableDelivery
