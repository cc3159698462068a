import ReliableDelivery.Browser.App

/-!
# What the page draws

The rest of `app.js`: the document, and the timer that delays the drawing of what comes
in.  Most events draw the conversation list and the active conversation at once; a
message that comes in only sets a timer, which draws for all messages that came in by
then.  Positions of the scrollbar are left out, and so are the fields of the forms.
-/

namespace ReliableDelivery

open Ecmascript TransitionSystem

/-- The engine with its clock as people of this place read it. -/
structure Browser extends Engine where
  toLocaleTimeString : ℕ → Text

/-! ## The document -/

/-- An item of `conversationList`. -/
structure ConversationItem where
  peerUid : ℕ
  active : Bool
  avatar : Text
  name : Text
  preview : Text
  badge : Text
  badgeHidden : Bool
  deriving DecidableEq

/-- An item of `messageList`. -/
structure MessageItem where
  direction : Direction
  messageMeta : Text
  content : Text
  status : Text
  deriving DecidableEq

/-- The texts over the two columns. -/
structure Header where
  currentUserTitle : Text := textOf "未登录"
  sessionId : Option ℕ := none
  conversationTitle : Text := textOf "选择一个聊天对象"
  conversationSubtitle : Text := textOf "左侧新建或选择会话后开始发送消息"
  deriving DecidableEq

/-- `chatView` says that the chat is shown and not the login; `composer`, that
`messageInput` and `sendButton` are enabled.  A list without conversations says so. -/
structure Document where
  chatView : Bool := false
  conversationList : List ConversationItem := []
  messageList : List MessageItem := []
  messageListHidden : Bool := false
  emptyChatHidden : Bool := false
  emptyChat : Text × Text :=
    (textOf "还没有选择会话", textOf "在左侧输入目标 UID 开始聊天，或等待别人给你发消息。")
  composer : Bool := false
  header : Header := {}
  wsStatus : Text := textOf "未连接"
  loginButtonDisabled : Bool := false

/-- `state` with the fields that concern the drawing.  `peers` has the keys of
`conversations` in the order in which they were put in. -/
structure PageState where
  app : AppState := {}
  sessionId : Option ℕ := none
  peers : List ℕ := []
  incomingRenderTimer : Bool := false
  incomingRenderNeedsList : Bool := false
  incomingRenderNeedsMessages : Bool := false
  incomingRenderPeerUid : Option ℕ := none

structure Page where
  state : PageState := {}
  els : Document := {}

/-! ## Items -/

namespace Browser

/-- `String(n)`. -/
def text (browser : Browser) (n : ℕ) : Text :=
  browser.numberToString (.ofNat n)

def conversationItem (browser : Browser) (activePeerUid : Option ℕ) (peerUid : ℕ)
    (conversation : Conversation) : ConversationItem where
  peerUid := peerUid
  active := activePeerUid = some peerUid
  avatar :=
    let digits := browser.text peerUid
    (digits.drop (digits.length - 2)).leftpad 2 (UInt16.ofNat '0'.toNat)
  name := textOf "UID " ++ browser.text peerUid
  preview :=
    if conversation.lastMessage = [] then textOf "新会话" else conversation.lastMessage
  badge := if 0 < conversation.unread then browser.text conversation.unread else []
  badgeHidden := conversation.unread = 0

def buildMessageMeta (browser : Browser) (now : ℕ) (message : ShownMessage) : Text :=
  let time := browser.toLocaleTimeString
    (if message.createdAtMs = 0 then now else message.createdAtMs)
  match message.direction with
  | .outgoing =>
      textOf "我 -> uid " ++ message.toUid.elim (textOf "undefined") browser.text ++
        textOf " · " ++ time
  | .incoming =>
      textOf "uid " ++ message.fromUid.elim (textOf "undefined") browser.text ++
        textOf " -> 我 · " ++ time
  | .system => textOf "系统 · " ++ time

def buildMessageStatus (browser : Browser) (message : ShownMessage) : Text :=
  let numbered (label : Text) :=
    message.msgId.elim label fun msgId => label ++ textOf " #" ++ browser.text msgId
  match message.direction, message.status with
  | .system, _ => []
  | _, .sending => textOf "发送中"
  | _, .sent => numbered (textOf "已被服务器接收")
  | _, .failed =>
      if message.reason = [] then textOf "发送失败"
      else textOf "发送失败: " ++ message.reason
  | _, .received => numbered (textOf "已 ACK")
  | _, .history => numbered (textOf "历史消息")
  | _, .notice => []

def messageItem (browser : Browser) (now : ℕ) (message : ShownMessage) :
    MessageItem where
  direction := message.direction
  messageMeta := browser.buildMessageMeta now message
  content := message.content
  status := browser.buildMessageStatus message

end Browser

/-! ## Drawing -/

/-- The active conversation, if it is one of another user than 0. -/
def AppState.openConversation (state : AppState) : Option (ℕ × Conversation) :=
  state.getActiveConversation.filter fun active => active.1 ≠ 0

namespace PageState

/-- The conversations in the order of the list: the latest first, and those of one
time in the order of the map. -/
def listed (state : PageState) : List (ℕ × Conversation) :=
  (state.peers.filterMap fun peerUid =>
      (state.app.conversations peerUid).map fun conversation => (peerUid, conversation))
    |>.filter (fun entry => entry.1 ≠ 0)
    |>.mergeSort fun a b => b.2.lastAtMs ≤ a.2.lastAtMs

def conversationItems (browser : Browser) (state : PageState) : List ConversationItem :=
  state.listed.map fun entry =>
    browser.conversationItem state.app.activePeerUid entry.1 entry.2

def messageItems (browser : Browser) (now : ℕ) (state : PageState)
    (conversation : Conversation) : List MessageItem :=
  conversation.getVisibleMessages.map fun number =>
    browser.messageItem now (state.app.object number)

def header (browser : Browser) (state : PageState) : Header where
  currentUserTitle :=
    match state.app.uid with
    | none => textOf "未登录"
    | some uid => if uid = 0 then textOf "未登录" else textOf "UID " ++ browser.text uid
  sessionId := state.sessionId
  conversationTitle :=
    state.app.openConversation.elim (textOf "选择一个聊天对象") fun active =>
      textOf "UID " ++ browser.text active.1
  conversationSubtitle :=
    state.app.openConversation.elim (textOf "左侧新建或选择会话后开始发送消息") fun _ =>
      if state.app.connected then textOf "在线，可发送消息"
      else textOf "等待 WebSocket 上线确认"

end PageState

namespace Page

section Drawing

variable (browser : Browser)

def renderConversationList (page : Page) : Page :=
  { page with els.conversationList := page.state.conversationItems browser }

def setComposerEnabled (enabled : Bool) (page : Page) : Page :=
  { page with els.composer := enabled && page.state.app.openConversation.isSome }

def updateHeader (page : Page) : Page :=
  { page with els.header := page.state.header browser }

def renderMessages (now : ℕ) (page : Page) : Page :=
  match page.state.app.openConversation with
  | none =>
      { page with
        els.messageList := []
        els.emptyChatHidden := false
        els.emptyChat :=
          (textOf "还没有选择会话",
            textOf "在左侧输入目标 UID 开始聊天，或等待别人给你发消息。")
        els.messageListHidden := true }
        |>.setComposerEnabled false
        |>.updateHeader browser
  | some (_, conversation) =>
      { page with
        els.emptyChatHidden := !conversation.messages.isEmpty
        els.messageListHidden := false
        els.messageList := page.state.messageItems browser now conversation }
        |>.setComposerEnabled page.state.app.connected
        |>.updateHeader browser

end Drawing

/-! ## The timer -/

/-- `renderMessages` is the option of this name. -/
def scheduleIncomingRender (renderMessages : Bool) (peerUid : ℕ) (page : Page) : Page :=
  let page := { page with state.incomingRenderNeedsList := true }
  let page :=
    if renderMessages then
      { page with
        state.incomingRenderNeedsMessages := true
        state.incomingRenderPeerUid := some peerUid }
    else page
  { page with state.incomingRenderTimer := true }

/-- Nothing is left to be drawn. -/
def forgetIncomingRender (page : Page) : Page :=
  { page with
    state.incomingRenderTimer := false
    state.incomingRenderNeedsList := false
    state.incomingRenderNeedsMessages := false
    state.incomingRenderPeerUid := none }

def flushIncomingRender (browser : Browser) (now : ℕ) (page : Page) : Page :=
  let shouldRenderList := page.state.incomingRenderNeedsList
  let shouldRenderMessages := page.state.incomingRenderNeedsMessages &&
    page.state.incomingRenderPeerUid = page.state.app.activePeerUid
  let page := page.forgetIncomingRender
  let page := if shouldRenderList then page.renderConversationList browser else page
  if shouldRenderMessages then page.renderMessages browser now else page

def clearIncomingRenderTimer (page : Page) : Page :=
  page.forgetIncomingRender

/-! ## Conversations -/

def addConversation (now peerUid : ℕ) (page : Page) : Page :=
  { page with
    state.app := page.state.app.addConversation now peerUid
    state.peers :=
      if (page.state.app.conversations peerUid).isSome then page.state.peers
      else page.state.peers ++ [peerUid] }

/-- `measured` says that what is scrolled away below is at most 32 pixels high. -/
def isMessageListNearBottom (measured : Bool) (page : Page) : Bool :=
  page.els.messageListHidden || measured

section Actions

variable (browser : Browser)

/-- Both lists are drawn. -/
def render (now : ℕ) (page : Page) : Page :=
  (page.renderConversationList browser).renderMessages browser now

def addSystemMessageToConversation (now : ℕ) (measured : Bool) (peerUid : ℕ)
    (content : Text) (page : Page) : Page :=
  let nearBottom := page.isMessageListNearBottom measured
  let page := page.addConversation now peerUid
  { page with
    state.app :=
      page.state.app.addSystemMessageToConversation now nearBottom peerUid content }
    |>.render browser now

def addSystemMessageToActive (now : ℕ) (measured : Bool) (content : Text)
    (page : Page) : Page :=
  match page.state.app.openConversation with
  | none =>
      { page with
        els.emptyChatHidden := false
        els.emptyChat := (textOf "系统提示", content) }
  | some (peerUid, _) =>
      page.addSystemMessageToConversation browser now measured peerUid content

def selectConversation (now peerUid : ℕ) (page : Page) : Page :=
  let page := page.addConversation now peerUid
  let page :=
    { page with state.app := page.state.app.selectConversation now peerUid }
      |>.render browser now
      |>.updateHeader browser
  page.setComposerEnabled page.state.app.connected

/-- The button that clears the active conversation. -/
def clearMessages (now : ℕ) (page : Page) : Page :=
  match page.state.app.getActiveConversation with
  | none => page
  | some _ =>
      { page with state.app := page.state.app.clearMessages }
        |>.renderMessages browser now
        |>.renderConversationList browser

def loadOlderMessages (now : ℕ) (page : Page) : Page :=
  match page.state.app.openConversation with
  | none => page
  | some (_, conversation) =>
      if page.els.messageListHidden ∨
          conversation.messages.length ≤ conversation.getVisibleMessageCount then page
      else
        { page with state.app := page.state.app.loadOlderMessages }
          |>.renderMessages browser now

def newChat (now : ℕ) (measured : Bool) (value : Text) (page : Page) : Page :=
  match parsePositiveInteger (browser.stringToNumber value) with
  | none =>
      page.addSystemMessageToActive browser now measured
        (textOf "目标 UID 必须是正整数")
  | some peerUid =>
      let page :=
        if page.state.app.uid = some peerUid then
          (page.addConversation now peerUid).addSystemMessageToConversation browser now
            measured peerUid
            (textOf "这是你自己的 UID，第一版可以保留用于本地测试。")
        else page
      page.selectConversation browser now peerUid

/-! ## Messages -/

def sendMessage (now : ℕ) (measured : Bool) (value clientMsgId : Text) (page : Page) :
    Page :=
  match page.state.app.getActiveConversation with
  | none =>
      page.addSystemMessageToActive browser now measured (textOf "请先选择聊天对象")
  | some (peerUid, _) =>
      if !page.state.app.connected || !page.state.app.isSocketOpen then
        page.addSystemMessageToConversation browser now measured peerUid
          (textOf "WebSocket 未在线，无法发送")
      else if trim value = [] then page
      else
        let nearBottom := page.isMessageListNearBottom measured
        { page with
          state.app := page.state.app.sendMessage now nearBottom value clientMsgId }
          |>.render browser now

def applySendAck (now : ℕ) (measured ok : Bool) (clientMsgId : Text) (msgId : ℕ)
    (reason : Text) (page : Page) : Page :=
  match page.state.app.pendingByClientMsgId clientMsgId with
  | none =>
      page.addSystemMessageToActive browser now measured
        (textOf "收到未匹配的 send_ack: " ++
          if clientMsgId = [] then textOf "-" else clientMsgId)
  | some _ =>
      let nearBottom := page.isMessageListNearBottom measured
      { page with
        state.app :=
          page.state.app.applySendAck now nearBottom ok clientMsgId msgId reason }
        |>.render browser now

/-- Nothing is drawn before the timer fires. -/
def appendIncomingMessage (now : ℕ) (measured : Bool) (msgId : Option ℕ)
    (fromUid toUid : ℕ) (content : Text) (serverTimestampMs : ℕ) (history : Bool)
    (page : Page) : Page :=
  let receiver := if toUid = 0 then page.state.app.uid.getD 0 else toUid
  let peerUid := if page.state.app.uid = some fromUid then receiver else fromUid
  let nearBottom := page.isMessageListNearBottom measured
  let page := page.addConversation now peerUid
  let isActiveConversation := page.state.app.activePeerUid = some peerUid
  { page with
    state.app := page.state.app.appendIncomingMessage now nearBottom msgId fromUid toUid
      content serverTimestampMs history }
    |>.scheduleIncomingRender isActiveConversation peerUid

def handleIncomingMessage (now : ℕ) (measured : Bool) (msgId fromUid toUid : ℕ)
    (content : Text) (serverTimestampMs : ℕ) (history : Bool) (page : Page) : Page :=
  let number := parsePositiveInteger (.ofNat msgId)
  let page :=
    if history then page
    else { page with state.app := page.state.app.sendMessageAck number }
  if number.any fun msgId => msgId ∈ page.state.app.renderedMessageIds then page
  else
    { page with
      state.app := { page.state.app with
        renderedMessageIds := page.state.app.renderedMessageIds ∪ number.toFinset } }
      |>.appendIncomingMessage now measured number fromUid toUid content
        serverTimestampMs history

def handleServerMessage (now : ℕ) (measured : Bool) (message : ServerMessage)
    (page : Page) : Page :=
  match message with
  | .unparsable =>
      page.addSystemMessageToActive browser now measured (textOf "收到无法解析的消息")
  | .frame (.online uid sessionId) =>
      { page with
        state.app := { page.state.app with
          connected := true
          uid := some (if uid = 0 then page.state.app.uid.getD 0 else uid) }
        state.sessionId := some sessionId
        els.wsStatus := textOf "在线" }
        |>.updateHeader browser
        |>.render browser now
  | .frame (.sendAck ok clientMsgId msgId reason) =>
      page.applySendAck browser now measured ok clientMsgId msgId reason
  | .frame (.message msgId fromUid toUid content serverTimestampMs history) =>
      page.handleIncomingMessage now measured msgId fromUid toUid content
        serverTimestampMs history
  | .frame (.error reason) =>
      page.addSystemMessageToActive browser now measured
        (if reason = [] then textOf "服务端返回错误" else reason)
  | .frame .pong => page
  | .unknown type =>
      page.addSystemMessageToActive browser now measured
        (textOf "未知消息类型: " ++ if type = [] then textOf "unknown" else type)

end Actions

/-! ## Logging in and out -/

def closeWebSocket (page : Page) : Page :=
  { page with state.app := page.state.app.closeWebSocket, state.sessionId := none }
    |>.setComposerEnabled false

def connectWebSocket (page : Page) : Page :=
  let page := page.closeWebSocket
  { page with
    state.app := { page.state.app with ws := some .connecting, connected := false }
    els.wsStatus := textOf "连接中" }
    |>.setComposerEnabled false

def resetChatState (page : Page) : Page :=
  let page := page.clearIncomingRenderTimer
  { page with
    state.app := page.state.app.resetChatState
    state.sessionId := none
    state.peers := [] }

def showChatView (browser : Browser) (now : ℕ) (page : Page) : Page :=
  { page with els.chatView := true }
    |>.updateHeader browser
    |>.render browser now

/-- `login` up to its request. -/
def submitLogin (page : Page) : Page :=
  { page with els.loginButtonDisabled := true }

/-- `login` after its request, which succeeded. -/
def login (browser : Browser) (now uid : ℕ) (page : Page) : Page :=
  let page := page.resetChatState
  let page := { page with state.app := { page.state.app with uid := some uid } }
  let page := (page.showChatView browser now).connectWebSocket
  { page with els.loginButtonDisabled := false }

/-- `login` after its request, which failed. -/
def loginFailed (page : Page) : Page :=
  { page.closeWebSocket with els.loginButtonDisabled := false }

def logout (page : Page) : Page :=
  let page := page.closeWebSocket.resetChatState
  { page with els.chatView := false, els.wsStatus := textOf "未连接" }

/-! ## Events -/

/-- What the script leaves when it has been loaded. -/
def loaded (browser : Browser) (now : ℕ) : Page :=
  ({} : Page).render browser now

end Page

/-- What can happen to the page with its timer. -/
inductive PageEvent where
  | submitLogin
  | app (event : AppEvent)
  | wsError
  | incomingRender

namespace Page

/-- What is not shown cannot be used. -/
def enabled (page : Page) : PageEvent → Bool
  | .submitLogin => !page.els.chatView && !page.els.loginButtonDisabled
  | .app (.login _) => page.els.loginButtonDisabled
  | .app .loginFailed => page.els.loginButtonDisabled
  | .app (.selectConversation _ peerUid) =>
      page.els.chatView && page.els.conversationList.any fun item => item.peerUid = peerUid
  | .app .logout => page.els.chatView
  | .app (.newChat _ _ _) => page.els.chatView
  | .app (.sendMessage _ _ _ _) => page.els.chatView
  | .app .clearMessages => page.els.chatView
  | .app .loadOlderMessages => page.els.chatView
  | .app event => page.state.app.enabled event
  | .wsError => page.state.app.ws.isSome
  | .incomingRender => page.state.incomingRenderTimer

/-- `now` is what the clock shows when the items are drawn. -/
def handle (browser : Browser) (now : ℕ) (event : PageEvent) (page : Page) : Page :=
  match event with
  | .submitLogin => page.submitLogin
  | .app (.login uid) => page.login browser now uid
  | .app .loginFailed => page.loginFailed
  | .app .logout => page.logout
  | .app .wsOpen =>
      { page with
        state.app := { page.state.app with ws := some .open }
        els.wsStatus := textOf "等待 IMServer 上线确认" }
  | .app (.wsMessage now measured message) =>
      page.handleServerMessage browser now measured message
  | .app .wsClosing =>
      { page with state.app := { page.state.app with ws := some .closing } }
  | .app .wsClose =>
      { page with
        state.app := { page.state.app with ws := some .closed, connected := false }
        els.wsStatus := textOf "已断开" }
        |>.setComposerEnabled false
        |>.updateHeader browser
  | .app (.newChat now measured value) => page.newChat browser now measured value
  | .app (.selectConversation now peerUid) => page.selectConversation browser now peerUid
  | .app (.sendMessage now measured value clientMsgId) =>
      page.sendMessage browser now measured value clientMsgId
  | .app .clearMessages => page.clearMessages browser now
  | .app .loadOlderMessages => page.loadOlderMessages browser now
  | .wsError => { page with els.wsStatus := textOf "连接错误" }
  | .incomingRender => page.flushIncomingRender browser now

end Page

/-- All runs of the page with its timer. -/
def page (browser : Browser) : TransitionSystem Page (ℕ × PageEvent) where
  init p := ∃ now, p = Page.loaded browser now
  step p l p' := p.enabled l.2 = true ∧ p' = p.handle browser l.1 l.2

abbrev PageRun (browser : Browser) := (page browser).Execution

end ReliableDelivery
