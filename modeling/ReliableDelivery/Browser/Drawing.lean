import ReliableDelivery.Browser.Rendering

/-!
# The drawn page in every run

The page with its document does what the page without it does, and what it shows is what
it would show if it drew everything at once, up to what the timer is set for.
-/

namespace ReliableDelivery

open Ecmascript TransitionSystem

/-! ## The page without its document -/

namespace AppState

variable {state : AppState}

theorem addConversation_addConversation (now peerUid : ℕ) (state : AppState) :
    (state.addConversation now peerUid).addConversation now peerUid =
      state.addConversation now peerUid := by
  apply addConversation_of_isSome
  simp [isSome_addConversation]

theorem addSystemMessageToConversation_addConversation (now : ℕ) (nearBottom : Bool)
    (peerUid : ℕ) (content : Text) (state : AppState) :
    (state.addConversation now peerUid).addSystemMessageToConversation now nearBottom
        peerUid content =
      state.addSystemMessageToConversation now nearBottom peerUid content := by
  simp only [addSystemMessageToConversation, addConversation_addConversation]

theorem selectConversation_addConversation (now peerUid : ℕ) (state : AppState) :
    (state.addConversation now peerUid).selectConversation now peerUid =
      state.selectConversation now peerUid := by
  simp only [selectConversation, addConversation_addConversation]

/-- A notice goes to the open conversation. -/
theorem addSystemMessageToActive_eq (now : ℕ) (nearBottom : Bool) (content : Text)
    (state : AppState) :
    state.addSystemMessageToActive now nearBottom content =
      state.openConversation.elim state fun active =>
        state.addSystemMessageToConversation now nearBottom active.1 content := by
  rw [addSystemMessageToActive, openConversation]
  cases state.getActiveConversation with
  | none => rfl
  | some active =>
      by_cases hzero : active.1 = 0
      · simp [Option.filter_some, hzero]
      · simp [Option.filter_some, hzero]

end AppState

namespace Page

open AppState PageState

variable {browser : Browser} {page : Page}

theorem app_addSystemMessageToConversation (now : ℕ) (measured : Bool) (peerUid : ℕ)
    (content : Text) (page : Page) :
    (page.addSystemMessageToConversation browser now measured peerUid content).state.app =
      page.state.app.addSystemMessageToConversation now
        (page.isMessageListNearBottom measured) peerUid content := by
  rw [addSystemMessageToConversation, state_render]
  exact addSystemMessageToConversation_addConversation ..

theorem app_addSystemMessageToActive (now : ℕ) (measured : Bool) (content : Text)
    (page : Page) :
    (page.addSystemMessageToActive browser now measured content).state.app =
      page.state.app.addSystemMessageToActive now
        (page.isMessageListNearBottom measured) content := by
  rw [addSystemMessageToActive, addSystemMessageToActive_eq]
  cases page.state.app.openConversation with
  | none => rfl
  | some active => exact app_addSystemMessageToConversation ..

theorem app_selectConversation (now peerUid : ℕ) (page : Page) :
    (page.selectConversation browser now peerUid).state.app =
      page.state.app.selectConversation now peerUid := by
  have hstate : ∀ page' : Page,
      (((page'.render browser now).updateHeader browser).setComposerEnabled
        (((page'.render browser now).updateHeader browser).state.app.connected)).state =
        page'.state := fun page' => state_render now page'
  rw [selectConversation, hstate]
  exact selectConversation_addConversation ..

theorem app_clearMessages (now : ℕ) (page : Page) :
    (page.clearMessages browser now).state.app = page.state.app.clearMessages := by
  cases hactive : page.state.app.getActiveConversation with
  | none => rw [clearMessages, AppState.clearMessages, hactive]
  | some active =>
      rw [clearMessages, hactive]
      dsimp only
      rw [renderConversationList_renderMessages, state_render]

theorem app_newChat (now : ℕ) (measured : Bool) (value : Text) (page : Page) :
    (page.newChat browser now measured value).state.app =
      page.state.app.newChat browser.toEngine now (page.isMessageListNearBottom measured)
        value := by
  cases hvalue : parsePositiveInteger (browser.stringToNumber value) with
  | none =>
      rw [newChat, AppState.newChat, hvalue]
      exact app_addSystemMessageToActive ..
  | some peerUid =>
      rw [newChat, AppState.newChat, hvalue]
      dsimp only
      rw [app_selectConversation]
      congr 1
      split
      · exact app_addSystemMessageToConversation ..
      · rfl

/-- The list is hidden if no conversation is open. -/
theorem app_loadOlderMessages (h : Current browser page) (now : ℕ) :
    (page.loadOlderMessages browser now).state.app =
      page.state.app.loadOlderMessages := by
  have hhidden := h.hidden
  cases hopen : page.state.app.openConversation with
  | none =>
      rw [loadOlderMessages, hopen]
      cases hactive : page.state.app.getActiveConversation with
      | none => rw [AppState.loadOlderMessages, hactive]
      | some active =>
          rw [openConversation, hactive, Option.filter_some] at hopen
          have hzero : active.1 = 0 := by simpa using hopen
          rw [AppState.loadOlderMessages, hactive]
          exact (if_pos (.inl hzero)).symm
  | some active =>
      obtain ⟨hne, hpeer, hc⟩ := openConversation_eq_some_iff.mp hopen
      have hactive := getActiveConversation_eq_some_iff.mpr ⟨hpeer, hc⟩
      rw [hopen, Option.isNone_some] at hhidden
      rw [loadOlderMessages, hopen, AppState.loadOlderMessages, hactive]
      simp only [hhidden, hne, Bool.false_eq_true, false_or]
      split
      · rfl
      · rw [(frame_renderMessages browser now _).1]

theorem app_sendMessage (now : ℕ) (measured : Bool) (value clientMsgId : Text)
    (page : Page) :
    (page.sendMessage browser now measured value clientMsgId).state.app =
      page.state.app.sendMessage now (page.isMessageListNearBottom measured) value
        clientMsgId := by
  cases hactive : page.state.app.getActiveConversation with
  | none =>
      rw [sendMessage, AppState.sendMessage, hactive]
      exact app_addSystemMessageToActive ..
  | some active =>
      rw [sendMessage, hactive]
      dsimp only
      split
      · next honline =>
          rw [app_addSystemMessageToConversation, AppState.sendMessage, hactive]
          exact (if_pos honline).symm
      · next honline =>
          split
          · next hempty =>
              rw [AppState.sendMessage, hactive]
              dsimp only
              rw [if_neg honline, if_pos hempty]
          · rw [state_render]

theorem app_applySendAck (now : ℕ) (measured ok : Bool) (clientMsgId : Text)
    (msgId : ℕ) (reason : Text) (page : Page) :
    (page.applySendAck browser now measured ok clientMsgId msgId reason).state.app =
      page.state.app.applySendAck now (page.isMessageListNearBottom measured) ok
        clientMsgId msgId reason := by
  cases hpending : page.state.app.pendingByClientMsgId clientMsgId with
  | none =>
      rw [applySendAck, AppState.applySendAck, hpending]
      exact app_addSystemMessageToActive ..
  | some pending =>
      rw [applySendAck, hpending]
      dsimp only
      rw [state_render]

theorem app_appendIncomingMessage (now : ℕ) (measured : Bool) (msgId : Option ℕ)
    (fromUid toUid : ℕ) (content : Text) (serverTimestampMs : ℕ) (history : Bool)
    (page : Page) :
    (page.appendIncomingMessage now measured msgId fromUid toUid content
        serverTimestampMs history).state.app =
      page.state.app.appendIncomingMessage now (page.isMessageListNearBottom measured)
        msgId fromUid toUid content serverTimestampMs history := by
  rw [appendIncomingMessage]
  dsimp only
  rw [scheduleIncomingRender_eq]
  exact appendIncomingMessage_addConversation ..

theorem app_handleIncomingMessage (now : ℕ) (measured : Bool) (msgId fromUid toUid : ℕ)
    (content : Text) (serverTimestampMs : ℕ) (history : Bool) (page : Page) :
    (page.handleIncomingMessage now measured msgId fromUid toUid content
        serverTimestampMs history).state.app =
      page.state.app.handleIncomingMessage now (page.isMessageListNearBottom measured)
        msgId fromUid toUid content serverTimestampMs history := by
  rw [handleIncomingMessage, AppState.handleIncomingMessage]
  generalize parsePositiveInteger (.ofNat msgId) = number
  dsimp only
  cases history with
  | true =>
      simp only [if_true]
      split
      · rfl
      · exact app_appendIncomingMessage ..
  | false =>
      simp only [Bool.false_eq_true, if_false]
      split
      · rfl
      · exact app_appendIncomingMessage ..

theorem app_handleServerMessage (now : ℕ) (measured : Bool) (message : ServerMessage)
    (page : Page) :
    (page.handleServerMessage browser now measured message).state.app =
      page.state.app.handleServerMessage now (page.isMessageListNearBottom measured)
        message := by
  rw [handleServerMessage.eq_def, AppState.handleServerMessage.eq_def]
  cases message with
  | unparsable => exact app_addSystemMessageToActive ..
  | unknown type => exact app_addSystemMessageToActive ..
  | frame frame =>
      cases frame with
      | online uid sessionId => exact congrArg PageState.app (state_render now _)
      | sendAck ok clientMsgId msgId reason => exact app_applySendAck ..
      | message msgId fromUid toUid content serverTimestampMs history =>
          exact app_handleIncomingMessage ..
      | error reason => exact app_addSystemMessageToActive ..
      | pong => rfl

theorem app_login (now uid : ℕ) (page : Page) :
    (page.login browser now uid).state.app = page.state.app.login uid := by
  let page₁ : Page :=
    { page.resetChatState with state.app.uid := some uid, els.chatView := true }
  let page₂ := (page₁.updateHeader browser).render browser now
  have hstate : page₂.state = page₁.state := state_render now _
  have hlogin : (page.login browser now uid).state.app =
      { page₂.state.app with ws := some .connecting, connected := false } := rfl
  rw [hlogin, hstate]
  rfl

/-- Every event of the page with its document is one of the page without it, or leaves
its state alone. -/
theorem app_handle (h : InOrder browser page) (now : ℕ) {event : PageEvent}
    (henabled : page.enabled event = true) :
    (page.handle browser now event).state.app = page.state.app ∨
      ∃ event', page.state.app.enabled event' = true ∧
        (page.handle browser now event).state.app =
          page.state.app.handle browser.toEngine event' := by
  cases event with
  | submitLogin => exact .inl rfl
  | wsError => exact .inl rfl
  | incomingRender =>
      left
      rw [handle, state_flushIncomingRender]
      rfl
  | app event =>
      have hshown : page.els.chatView = true → Current browser page := h.current
      right
      cases event with
      | login uid => exact ⟨.login uid, rfl, app_login now uid page⟩
      | loginFailed => exact ⟨.loginFailed, rfl, rfl⟩
      | logout => exact ⟨.logout, rfl, rfl⟩
      | wsOpen => exact ⟨.wsOpen, henabled, rfl⟩
      | wsMessage now' measured message =>
          exact ⟨.wsMessage now' (page.isMessageListNearBottom measured) message, henabled,
            app_handleServerMessage now' measured message page⟩
      | wsClosing => exact ⟨.wsClosing, henabled, rfl⟩
      | wsClose => exact ⟨.wsClose, henabled, rfl⟩
      | newChat now' measured value =>
          exact ⟨.newChat now' (page.isMessageListNearBottom measured) value, rfl,
            app_newChat now' measured value page⟩
      | selectConversation now' peerUid =>
          refine ⟨.selectConversation now' peerUid, ?_, app_selectConversation ..⟩
          simp only [enabled, Bool.and_eq_true, List.any_eq_true, decide_eq_true_eq]
            at henabled
          obtain ⟨hview, item, hitem, rfl⟩ := henabled
          exact (hshown hview).rows item hitem
      | sendMessage now' measured value clientMsgId =>
          exact ⟨.sendMessage now' (page.isMessageListNearBottom measured) value clientMsgId,
            rfl, app_sendMessage now' measured value clientMsgId page⟩
      | clearMessages => exact ⟨.clearMessages, rfl, app_clearMessages now page⟩
      | loadOlderMessages =>
          exact ⟨.loadOlderMessages, rfl, app_loadOlderMessages (hshown henabled) now⟩

end Page

/-! ## Runs -/

namespace PageRun

variable {browser : Browser}

theorem inOrder (e : PageRun browser) : e.state.InOrder browser := by
  apply Execution.induct (P := fun e : PageRun browser =>
    Page.InOrder browser (Execution.state e))
  · rintro e - ⟨now, hinit⟩
    rw [hinit]
    exact Page.inOrder_loaded now
  · intro e e' l h hnext
    obtain ⟨henabled, hstate⟩ : e.state.enabled l.2 = true ∧
        e'.state = e.state.handle browser l.1 l.2 := hnext.1
    rw [hstate]
    exact h.handle l.1 henabled

/-- What the page has in mind, the page without its document may have in mind. -/
theorem exists_appRun (e : PageRun browser) :
    ∃ a : AppRun browser.toEngine, a.state = e.state.state.app := by
  apply Execution.induct (P := fun e : PageRun browser =>
    ∃ a : AppRun browser.toEngine,
      Execution.state a = (Execution.state e).state.app)
  · rintro e - ⟨now, hinit⟩
    refine ⟨⟨[], {}, .init rfl⟩, ?_⟩
    rw [hinit, Page.loaded, Page.state_render]
  · rintro e e' l ⟨a, ha⟩ hnext
    obtain ⟨henabled, hstate⟩ : e.state.enabled l.2 = true ∧
        e'.state = e.state.handle browser l.1 l.2 := hnext.1
    rcases Page.app_handle (inOrder e) l.1 henabled with
      hsame | ⟨event, happ, hhandle⟩
    · exact ⟨a, by rw [ha, hstate, hsame]⟩
    · rw [← ha] at happ hhandle
      refine ⟨a.extend (s := e'.state.state.app) (l := event) ⟨happ, ?_⟩, rfl⟩
      rw [hstate, hhandle]

/-- Drawing late.  In every run of the page, while the chat is shown, what the page has
in mind is what it would have in mind if it drew everything at once.  The conversation
list shows the conversations as they are, or the timer is set; the open conversation is
shown as it is, or the timer is set for this very conversation.  When the timer fires,
both are shown as they are.  The header, the composer and whether a conversation is
shown at all never wait for the timer. -/
theorem drawn_or_due (e : PageRun browser) (hshown : e.state.els.chatView = true) :
    (∃ a : AppRun browser.toEngine, a.state = e.state.state.app) ∧
    (e.state.els.conversationList = e.state.state.conversationItems browser ∨
      e.state.state.incomingRenderTimer = true) ∧
    (Page.MessagesDrawn browser e.state ∨ e.state.state.incomingRenderTimer = true ∧
      e.state.state.incomingRenderPeerUid = e.state.state.app.activePeerUid) ∧
    (∀ now e', e.Next (now, .incomingRender) e' →
      e'.state.els.conversationList = e.state.state.conversationItems browser ∧
      Page.MessagesDrawn browser e'.state ∧ e'.state.state.app = e.state.state.app ∧
      e'.state.state.incomingRenderTimer = false) ∧
    e.state.els.header = e.state.state.header browser ∧
    e.state.els.composer = (e.state.state.app.connected &&
      e.state.state.app.openConversation.isSome) ∧
    e.state.els.messageListHidden = e.state.state.app.openConversation.isNone := by
  have hcurrent := (inOrder e).current hshown
  have htimed := hcurrent.timed
  refine ⟨exists_appRun e, ?_, ?_, fun now e' hnext => ?_, hcurrent.header,
    hcurrent.composer, hcurrent.hidden⟩
  · cases hlist : e.state.state.incomingRenderNeedsList with
    | true => exact .inr (htimed.list.trans hlist)
    | false => exact .inl (hcurrent.list hlist)
  · cases hdue : e.state.state.messagesDue with
    | true =>
        rw [PageState.messagesDue, Bool.and_eq_true, decide_eq_true_eq] at hdue
        exact .inr ⟨htimed.list.trans (htimed.messages hdue.1), hdue.2⟩
    | false => exact .inl (hcurrent.messages hdue)
  · have hfired : e'.state = e.state.flushIncomingRender browser now := hnext.1.2
    have hstate := Page.state_flushIncomingRender browser now e.state
    have hafter : e'.state.Current browser := by
      rw [hfired]
      exact (Page.updates_flushIncomingRender now e.state).current
        (inOrder e).wellFormed hcurrent
    rw [← hfired] at hstate
    refine ⟨?_, hafter.messages (by rw [hstate]; rfl), by rw [hstate]; rfl,
      by rw [hstate]; rfl⟩
    rw [hafter.list (by rw [hstate]; rfl), hstate]
    rfl

end PageRun

/-! ## The conversation list -/

namespace AppState

variable {state state' state'' : AppState}

/-- The active conversation has no unread messages. -/
def Read (state : AppState) : Prop :=
  ∀ peerUid c, state.activePeerUid = some peerUid →
    state.conversations peerUid = some c → c.unread = 0

/-- The active conversation gets no unread messages. -/
structure Quiet (state state' : AppState) : Prop where
  activePeerUid : state'.activePeerUid = state.activePeerUid
  unread : ∀ peerUid c', state.activePeerUid = some peerUid →
    state'.conversations peerUid = some c' →
      c'.unread = 0 ∨ ∃ c, state.conversations peerUid = some c ∧ c'.unread = c.unread

theorem Quiet.refl (state : AppState) : Quiet state state :=
  ⟨rfl, fun _ c _ hc => .inr ⟨c, hc, rfl⟩⟩

theorem Quiet.trans (h : Quiet state state') (h' : Quiet state' state'') :
    Quiet state state'' := by
  refine ⟨h'.activePeerUid.trans h.activePeerUid, fun p c'' hactive hc'' => ?_⟩
  rcases h'.unread p c'' (h.activePeerUid.trans hactive) hc'' with hzero | ⟨c', hc', heq⟩
  · exact .inl hzero
  · rcases h.unread p c' hactive hc' with hzero | ⟨c, hc, heq'⟩
    · exact .inl (heq.trans hzero)
    · exact .inr ⟨c, hc, heq.trans heq'⟩

theorem Read.quiet (h : state.Read) (hquiet : Quiet state state') : state'.Read := by
  intro p c' hactive hc'
  rw [hquiet.activePeerUid] at hactive
  rcases hquiet.unread p c' hactive hc' with hzero | ⟨c, hc, heq⟩
  · exact hzero
  · rw [heq]
    exact h p c hactive hc

theorem quiet_addConversation (now peerUid : ℕ) (state : AppState) :
    Quiet state (state.addConversation now peerUid) := by
  rw [addConversation]
  split
  · exact .refl state
  · refine ⟨rfl, fun p c' _ hc' => ?_⟩
    simp only [Function.update_apply] at hc'
    split at hc'
    · cases hc'
      exact .inl rfl
    · exact .inr ⟨c', hc', rfl⟩

theorem quiet_modifyConversation {peerUid : ℕ} {f : Conversation → Conversation}
    (hf : state.activePeerUid = some peerUid →
      ∀ c, (f c).unread = 0 ∨ (f c).unread = c.unread) :
    Quiet state (state.modifyConversation peerUid f) := by
  refine ⟨rfl, fun p c' hactive hc' => ?_⟩
  simp only [modifyConversation, Function.update_apply] at hc'
  split at hc'
  · next heq =>
      subst heq
      obtain ⟨c, hc, rfl⟩ := Option.map_eq_some_iff.mp hc'
      rcases hf hactive c with hzero | hsame
      · exact .inl hzero
      · exact .inr ⟨c, hc, hsame⟩
  · exact .inr ⟨c', hc', rfl⟩

theorem quiet_pushMessage (peerUid : ℕ) (message : ShownMessage) (state : AppState) :
    Quiet state (state.pushMessage peerUid message) := by
  have hquiet : Quiet state (state.modifyConversation peerUid fun conversation =>
      { conversation with
        messages := conversation.messages ++ [state.nextObject]
        lastMessage := message.content
        lastAtMs := message.createdAtMs }) :=
    quiet_modifyConversation fun _ _ => .inr rfl
  exact ⟨hquiet.activePeerUid, hquiet.unread⟩

theorem unread_updateVisible (keep : Bool) (c : Conversation) :
    (c.updateVisibleWindowAfterAppend keep).unread = c.unread := by
  rw [Conversation.updateVisibleWindowAfterAppend]
  split
  · rfl
  · split
    · rfl
    · rfl

theorem quiet_addSystemMessageToConversation (now : ℕ) (nearBottom : Bool)
    (peerUid : ℕ) (content : Text) (state : AppState) :
    Quiet state
      (state.addSystemMessageToConversation now nearBottom peerUid content) := by
  rw [addSystemMessageToConversation]
  refine (quiet_addConversation now peerUid state).trans ((quiet_pushMessage ..).trans
    (quiet_modifyConversation fun _ c => .inr ?_))
  exact unread_updateVisible _ c

theorem quiet_addSystemMessageToActive (now : ℕ) (nearBottom : Bool) (content : Text)
    (state : AppState) :
    Quiet state (state.addSystemMessageToActive now nearBottom content) := by
  rw [addSystemMessageToActive_eq]
  cases state.openConversation with
  | none => exact .refl state
  | some active => exact quiet_addSystemMessageToConversation ..

theorem read_selectConversation (now peerUid : ℕ) (state : AppState) :
    (state.selectConversation now peerUid).Read := by
  intro p c hactive hc
  have hpeer : peerUid = p := Option.some.inj hactive
  subst hpeer
  simp only [selectConversation, modifyConversation, Function.update_self,
    Option.map_eq_some_iff] at hc
  obtain ⟨c', -, rfl⟩ := hc
  rfl

theorem quiet_clearMessages (state : AppState) : Quiet state state.clearMessages := by
  rw [clearMessages]
  split
  · exact .refl state
  · exact quiet_modifyConversation fun _ _ => .inl rfl

theorem quiet_loadOlderMessages (state : AppState) :
    Quiet state state.loadOlderMessages := by
  rw [loadOlderMessages]
  split
  · exact .refl state
  · split
    · exact .refl state
    · exact quiet_modifyConversation fun _ _ => .inr rfl

theorem quiet_sendMessage (now : ℕ) (nearBottom : Bool) (value clientMsgId : Text)
    (state : AppState) :
    Quiet state (state.sendMessage now nearBottom value clientMsgId) := by
  rw [sendMessage]
  split
  · exact quiet_addSystemMessageToActive ..
  · split
    · exact quiet_addSystemMessageToConversation ..
    · split
      · exact .refl state
      · next peerUid _ _ _ _ =>
          have hpush := quiet_pushMessage peerUid
            { direction := .outgoing, clientMsgId := some clientMsgId
              fromUid := state.uid, toUid := some peerUid
              content := trim value, status := .sending
              createdAtMs := now } state
          have hwindow : ∀ state' : AppState, Quiet state'
              (state'.modifyConversation peerUid Conversation.resetVisibleMessageWindow) :=
            fun _ => quiet_modifyConversation fun _ _ => .inr rfl
          have hquiet := hpush.trans (hwindow _)
          exact ⟨hquiet.activePeerUid, hquiet.unread⟩

theorem quiet_applySendAck (now : ℕ) (nearBottom ok : Bool) (clientMsgId : Text)
    (msgId : ℕ) (reason : Text) (state : AppState) :
    Quiet state (state.applySendAck now nearBottom ok clientMsgId msgId reason) := by
  rw [applySendAck]
  split
  · exact quiet_addSystemMessageToActive ..
  · exact ⟨rfl, fun _ c _ hc => .inr ⟨c, hc, rfl⟩⟩

/-- A message is unread only if its conversation is not active. -/
theorem quiet_appendIncomingMessage (now : ℕ) (nearBottom : Bool) (msgId : Option ℕ)
    (fromUid toUid : ℕ) (content : Text) (serverTimestampMs : ℕ) (history : Bool)
    (state : AppState) :
    Quiet state (state.appendIncomingMessage now nearBottom msgId fromUid toUid content
      serverTimestampMs history) := by
  simp only [appendIncomingMessage]
  refine (quiet_addConversation now _ state).trans ((quiet_pushMessage ..).trans
    (quiet_modifyConversation fun hactive c => .inr ?_))
  have hactive' : (state.addConversation now
      (if state.uid = some fromUid then
        if toUid = 0 then state.uid.getD 0 else toUid
      else fromUid)).activePeerUid = some (if state.uid = some fromUid then
        if toUid = 0 then state.uid.getD 0 else toUid
      else fromUid) := hactive
  simp only [hactive', decide_true, Bool.not_true, Bool.false_and, Bool.false_eq_true,
    if_false]
  exact unread_updateVisible _ c

theorem quiet_handleIncomingMessage (now : ℕ) (nearBottom : Bool)
    (msgId fromUid toUid : ℕ) (content : Text) (serverTimestampMs : ℕ) (history : Bool)
    (state : AppState) :
    Quiet state (state.handleIncomingMessage now nearBottom msgId fromUid toUid content
      serverTimestampMs history) := by
  rw [handleIncomingMessage]
  generalize parsePositiveInteger (.ofNat msgId) = number
  have hacked : ∀ state' : AppState, state' =
      (if history = true then state else state.sendMessageAck number) →
      Quiet state state' := by
    rintro state' rfl
    split
    · exact .refl state
    · cases number with
      | none => exact .refl state
      | some msgId =>
          rw [sendMessageAck.eq_def]
          dsimp only
          split
          · exact ⟨rfl, fun _ c _ hc => .inr ⟨c, hc, rfl⟩⟩
          · exact .refl state
  generalize hstate : (if history = true then state else
    state.sendMessageAck number) = state'
  have hquiet := hacked state' hstate.symm
  split
  · exact hquiet
  · have happended := quiet_appendIncomingMessage now nearBottom number fromUid toUid
      content serverTimestampMs history { state' with
        renderedMessageIds := state'.renderedMessageIds ∪ number.toFinset }
    exact hquiet.trans ⟨happended.activePeerUid, happended.unread⟩

theorem quiet_handleServerMessage (now : ℕ) (nearBottom : Bool)
    (message : ServerMessage) (state : AppState) :
    Quiet state (state.handleServerMessage now nearBottom message) := by
  rw [handleServerMessage.eq_def]
  cases message with
  | unparsable => exact quiet_addSystemMessageToActive ..
  | unknown type => exact quiet_addSystemMessageToActive ..
  | frame frame =>
      cases frame with
      | online uid sessionId => exact ⟨rfl, fun _ c _ hc => .inr ⟨c, hc, rfl⟩⟩
      | sendAck ok clientMsgId msgId reason => exact quiet_applySendAck ..
      | message msgId fromUid toUid content serverTimestampMs history =>
          exact quiet_handleIncomingMessage ..
      | error reason => exact quiet_addSystemMessageToActive ..
      | pong => exact .refl state

theorem Read.handle {engine : Engine} (h : state.Read) (event : AppEvent) :
    (state.handle engine event).Read := by
  cases event with
  | login uid => exact fun _ _ hactive _ => by cases hactive
  | logout => exact fun _ _ hactive _ => by cases hactive
  | loginFailed => exact h
  | wsOpen => exact h
  | wsMessage now nearBottom message =>
      exact h.quiet (quiet_handleServerMessage now nearBottom message state)
  | wsClosing => exact h
  | wsClose => exact h
  | newChat now nearBottom value =>
      rw [AppState.handle, newChat]
      split
      · exact h.quiet (quiet_addSystemMessageToActive ..)
      · exact read_selectConversation now _ _
  | selectConversation now peerUid => exact read_selectConversation now peerUid state
  | sendMessage now nearBottom value clientMsgId =>
      exact h.quiet (quiet_sendMessage now nearBottom value clientMsgId state)
  | clearMessages => exact h.quiet (quiet_clearMessages state)
  | loadOlderMessages => exact h.quiet (quiet_loadOlderMessages state)

theorem read_of_run {engine : Engine} (e : AppRun engine) : e.state.Read := by
  apply Execution.induct (P := fun e : AppRun engine => (Execution.state e).Read)
  · intro e _ hinit p c hactive _
    rw [show e.state = {} from hinit] at hactive
    cases hactive
  · intro e e' event ih hnext
    rw [show e'.state = e.state.handle engine event from hnext.1.2]
    exact ih.handle event

end AppState

namespace PageState

variable {state : PageState}

theorem mem_listed {entry : ℕ × Conversation} :
    entry ∈ state.listed ↔ entry.1 ≠ 0 ∧ entry.1 ∈ state.peers ∧
      state.app.conversations entry.1 = some entry.2 := by
  rw [listed, List.mem_mergeSort, List.mem_filter, List.mem_filterMap, decide_eq_true_eq,
    and_comm]
  apply and_congr_right
  intro _
  constructor
  · rintro ⟨p, hp, heq⟩
    obtain ⟨c, hc, rfl⟩ := Option.map_eq_some_iff.mp heq
    exact ⟨hp, hc⟩
  · rintro ⟨hp, hc⟩
    exact ⟨entry.1, hp, Option.map_eq_some_iff.mpr ⟨entry.2, hc, rfl⟩⟩

theorem nodup_listed (h : state.WellFormed) : (state.listed.map Prod.fst).Nodup := by
  rw [listed, ((List.mergeSort_perm _ _).map _).nodup_iff, List.Nodup, List.pairwise_map]
  refine List.Pairwise.filter _ (List.pairwise_filterMap.mpr ?_)
  refine h.nodup.imp fun hne entry hentry entry' hentry' heq => hne ?_
  obtain ⟨c, -, rfl⟩ := Option.map_eq_some_iff.mp hentry
  obtain ⟨c', -, rfl⟩ := Option.map_eq_some_iff.mp hentry'
  exact heq

theorem sorted_listed (state : PageState) :
    state.listed.Pairwise fun a b => b.2.lastAtMs ≤ a.2.lastAtMs := by
  rw [listed]
  refine (List.pairwise_mergeSort (fun a b c hab hbc => ?_) (fun a b => ?_) _).imp
    fun h => of_decide_eq_true h
  · rw [decide_eq_true_eq] at hab hbc ⊢
    exact hbc.trans hab
  · rw [Bool.or_eq_true, decide_eq_true_eq, decide_eq_true_eq]
    exact Nat.le_total ..

end PageState

namespace PageRun

variable {browser : Browser}

/-- The conversation list.  In every run of the page, while the chat is shown and no
drawing is due, the list has one item for every conversation with another user than 0,
the latest first; the item of the active conversation is marked and has no badge, and
the others have one exactly if there are unread messages. -/
theorem conversationList_shown (e : PageRun browser)
    (hshown : e.state.els.chatView = true)
    (htimer : e.state.state.incomingRenderTimer = false) :
    (e.state.els.conversationList.map ConversationItem.peerUid).Nodup ∧
    (∀ peerUid, peerUid ∈ e.state.els.conversationList.map ConversationItem.peerUid ↔
      peerUid ≠ 0 ∧ (e.state.state.app.conversations peerUid).isSome = true) ∧
    (∃ entries : List (ℕ × Conversation),
      entries.map Prod.fst = e.state.els.conversationList.map ConversationItem.peerUid ∧
      (∀ entry ∈ entries,
        e.state.state.app.conversations entry.1 = some entry.2) ∧
      entries.Pairwise fun a b => b.2.lastAtMs ≤ a.2.lastAtMs) ∧
    ∀ item ∈ e.state.els.conversationList, ∃ conversation,
      e.state.state.app.conversations item.peerUid = some conversation ∧
      (item.active = true ↔ e.state.state.app.activePeerUid = some item.peerUid) ∧
      (item.badgeHidden = true ↔ conversation.unread = 0) ∧
      (item.active = true → item.badgeHidden = true) := by
  have hinOrder := inOrder e
  have hcurrent := hinOrder.current hshown
  have hlist := hcurrent.list (hcurrent.timed.list.symm.trans htimer)
  obtain ⟨a, ha⟩ := exists_appRun e
  have hread : e.state.state.app.Read := ha ▸ AppState.read_of_run a
  have hpeers : e.state.els.conversationList.map ConversationItem.peerUid =
      e.state.state.listed.map Prod.fst := by
    rw [hlist, PageState.conversationItems, List.map_map]
    rfl
  refine ⟨?_, fun peerUid => ?_, ⟨e.state.state.listed, hpeers.symm, ?_,
    PageState.sorted_listed _⟩, fun item hitem => ?_⟩
  · rw [hpeers]
    exact PageState.nodup_listed hinOrder.wellFormed
  · rw [hpeers, List.mem_map]
    constructor
    · rintro ⟨entry, hentry, rfl⟩
      obtain ⟨hne, -, hc⟩ := PageState.mem_listed.mp hentry
      exact ⟨hne, Option.isSome_iff_exists.mpr ⟨_, hc⟩⟩
    · rintro ⟨hne, hsome⟩
      obtain ⟨c, hc⟩ := Option.isSome_iff_exists.mp hsome
      refine ⟨(peerUid, c), PageState.mem_listed.mpr ⟨hne, ?_, hc⟩, rfl⟩
      exact (hinOrder.wellFormed.mem_peers peerUid).mpr hsome
  · exact fun entry hentry => (PageState.mem_listed.mp hentry).2.2
  · rw [hlist] at hitem
    obtain ⟨⟨peerUid, c⟩, hentry, rfl⟩ := List.mem_map.mp hitem
    obtain ⟨-, -, hc⟩ := PageState.mem_listed.mp hentry
    refine ⟨c, hc, decide_eq_true_iff, decide_eq_true_iff, fun hactive => ?_⟩
    exact decide_eq_true (hread peerUid c (of_decide_eq_true hactive) hc)

end PageRun

def pageDriver (browser : Browser) : Driver (page browser) (ℕ × PageEvent) where
  advance p l :=
    if p.enabled l.2 = true then some (l, p.handle browser l.1 l.2) else none
  sound p l l' p' h := by
    split at h
    · next henabled =>
        cases h
        exact ⟨henabled, rfl⟩
    · cases h

/-- The run along a list of events; impossible ones are skipped. -/
theorem exists_pageRun (browser : Browser) (events : List (ℕ × PageEvent)) :
    ∃ e : PageRun browser,
      e.state = (pageDriver browser).follow (Page.loaded browser 0) events := by
  obtain ⟨e, -, hstate, -⟩ := (pageDriver browser).exists_follow events
    ⟨[], Page.loaded browser 0, .init ⟨0, rfl⟩⟩
  exact ⟨e, hstate⟩

def browserOf (uid : ℕ) : Browser where
  toEngine := engineOf uid
  toLocaleTimeString _ := []

/-- User 7 opens the conversation with user 2, from whom a message comes in. -/
def sampleIncoming : List (ℕ × PageEvent) :=
  [.submitLogin, .app (.login 7), .app .wsOpen,
    .app (.wsMessage 1000 true (.frame (.online 7 0))),
    .app (.newChat 1000 true (ascii "peer")),
    .app (.wsMessage 1000 true (.frame (.message 5 2 7 (ascii "hi") 1000 false)))].map
    fun event => (1000, event)

/-- The message is drawn when the timer fires. -/
theorem drawn_or_due_sampleIncoming :
    ∃ e e' : PageRun (browserOf 2), e.Next (1000, .incomingRender) e' ∧
      e.state.els.messageList = [] ∧ e'.state.els.messageList.length = 1 ∧
      Page.MessagesDrawn (browserOf 2) e'.state := by
  obtain ⟨e, hstate⟩ := exists_pageRun (browserOf 2) sampleIncoming
  have hshown : e.state.els.chatView = true := by
    rw [hstate]
    decide +kernel
  have henabled : e.state.enabled .incomingRender = true := by
    rw [hstate]
    decide +kernel
  obtain ⟨-, -, -, hfires, -⟩ := PageRun.drawn_or_due e hshown
  have hnext := e.next_extend (l := ((1000, .incomingRender) : ℕ × PageEvent))
    ⟨henabled, rfl⟩
  refine ⟨e, _, hnext, ?_, ?_, (hfires 1000 _ hnext).2.1⟩
  · rw [hstate]
    decide +kernel
  · have hafter : ((e.state.handle (browserOf 2) 1000
        .incomingRender).els.messageList).length = 1 := by
      rw [hstate]
      decide +kernel
    exact hafter

/-- The conversation with user 2 is in the list. -/
theorem conversationList_shown_sampleIncoming :
    ∃ e : PageRun (browserOf 2),
      2 ∈ e.state.els.conversationList.map ConversationItem.peerUid := by
  obtain ⟨e, hstate⟩ := exists_pageRun (browserOf 2)
    (sampleIncoming ++ [(1050, .incomingRender)])
  have hshown : e.state.els.chatView = true := by
    rw [hstate]
    decide +kernel
  have htimer : e.state.state.incomingRenderTimer = false := by
    rw [hstate]
    decide +kernel
  refine ⟨e, ((PageRun.conversationList_shown e hshown htimer).2.1 2).mpr
    ⟨by decide, ?_⟩⟩
  rw [hstate]
  decide +kernel

end ReliableDelivery
