import ReliableDelivery.Browser.Page
import ReliableDelivery.Browser.Window

/-!
# Drawing late

While the chat is shown, what is not drawn yet is due: the timer is set, and when it
fires, both lists show the conversations as they are then.  Whether the user may write
is never drawn late.
-/

namespace ReliableDelivery

open Ecmascript TransitionSystem

/-! ## The state of the page -/

namespace AppState

variable {state state' state'' : AppState}

def Numbered (state : AppState) : Prop :=
  ∀ peerUid c, state.conversations peerUid = some c →
    ∀ number ∈ c.messages, number < state.nextObject

/-- What is kept by everything that works on conversations that are there. -/
structure Keeps (state state' : AppState) : Prop where
  isSome : ∀ peerUid,
    (state'.conversations peerUid).isSome = (state.conversations peerUid).isSome
  activePeerUid : state'.activePeerUid = state.activePeerUid
  numbered : state.Numbered → state'.Numbered

theorem Keeps.trans (h : Keeps state state') (h' : Keeps state' state'') :
    Keeps state state'' :=
  ⟨fun p => (h'.isSome p).trans (h.isSome p), h'.activePeerUid.trans h.activePeerUid,
    fun hnumbered => h'.numbered (h.numbered hnumbered)⟩

theorem keeps_modifyConversation {f : Conversation → Conversation}
    (hf : ∀ c, (f c).messages ⊆ c.messages) (peerUid : ℕ) (state : AppState) :
    Keeps state (state.modifyConversation peerUid f) := by
  refine ⟨fun p => ?_, rfl, fun hnumbered p c hc number hnumber => ?_⟩
  · simp only [modifyConversation, Function.update_apply]
    split
    · next heq => rw [heq, Option.isSome_map]
    · rfl
  · simp only [modifyConversation, Function.update_apply] at hc
    split at hc
    · obtain ⟨c', hc', rfl⟩ := Option.map_eq_some_iff.mp hc
      exact hnumbered peerUid c' hc' number (hf c' hnumber)
    · exact hnumbered p c hc number hnumber

theorem keeps_pushMessage (peerUid : ℕ) (message : ShownMessage) (state : AppState) :
    Keeps state (state.pushMessage peerUid message) := by
  refine ⟨fun p => ?_, rfl, fun hnumbered p c hc number hnumber => ?_⟩
  · simp only [pushMessage, modifyConversation, Function.update_apply]
    split
    · next heq => rw [heq, Option.isSome_map]
    · rfl
  · have hnext : (state.pushMessage peerUid message).nextObject =
        state.nextObject + 1 := rfl
    rw [hnext]
    simp only [pushMessage, modifyConversation, Function.update_apply] at hc
    split at hc
    · obtain ⟨c', hc', rfl⟩ := Option.map_eq_some_iff.mp hc
      rcases List.mem_append.mp hnumber with hold | hnew
      · exact Nat.lt_succ_of_lt (hnumbered peerUid c' hc' number hold)
      · rw [List.mem_singleton.mp hnew]
        exact Nat.lt_succ_self _
    · exact Nat.lt_succ_of_lt (hnumbered p c hc number hnumber)

theorem updateVisible_subset (keep : Bool) (c : Conversation) :
    (c.updateVisibleWindowAfterAppend keep).messages ⊆ c.messages := by
  rw [messages_updateVisible]
  exact List.Subset.refl _

theorem addConversation_of_isSome {peerUid : ℕ}
    (h : (state.conversations peerUid).isSome = true) (now : ℕ) :
    state.addConversation now peerUid = state := by
  obtain ⟨c, hc⟩ := Option.isSome_iff_exists.mp h
  rw [addConversation, hc]

theorem isSome_addConversation (now peerUid p : ℕ) (state : AppState) :
    ((state.addConversation now peerUid).conversations p).isSome =
      (decide (p = peerUid) || (state.conversations p).isSome) := by
  rw [addConversation]
  split
  · next c hc =>
      by_cases hp : p = peerUid
      · simp [hp, hc]
      · simp [hp]
  · simp only [Function.update_apply]
    split
    · next heq => simp [heq]
    · next hne => simp [hne]

/-- A new conversation changes the map only. -/
theorem addConversation_eq (now peerUid : ℕ) (state : AppState) :
    state.addConversation now peerUid =
      { state with conversations := (state.addConversation now peerUid).conversations } := by
  rw [addConversation]
  split
  · rfl
  · rfl

theorem activePeerUid_addConversation (now peerUid : ℕ) (state : AppState) :
    (state.addConversation now peerUid).activePeerUid = state.activePeerUid := by
  rw [addConversation_eq]

theorem uid_addConversation (now peerUid : ℕ) (state : AppState) :
    (state.addConversation now peerUid).uid = state.uid := by
  rw [addConversation_eq]

theorem conversations_addConversation_of_ne {peerUid p : ℕ} (hne : p ≠ peerUid)
    (now : ℕ) (state : AppState) :
    (state.addConversation now peerUid).conversations p = state.conversations p := by
  rw [addConversation]
  split
  · rfl
  · exact Function.update_of_ne hne ..

theorem Numbered.addConversation (h : state.Numbered) (now peerUid : ℕ) :
    (state.addConversation now peerUid).Numbered := by
  rw [AppState.addConversation]
  split
  · exact h
  · intro p c hc number hnumber
    simp only [Function.update_apply] at hc
    split at hc
    · cases hc
      cases hnumber
    · exact h p c hc number hnumber

theorem keeps_addSystemMessageToConversation {peerUid : ℕ}
    (h : (state.conversations peerUid).isSome = true) (now : ℕ) (nearBottom : Bool)
    (content : Text) :
    Keeps state
      (state.addSystemMessageToConversation now nearBottom peerUid content) := by
  rw [addSystemMessageToConversation, addConversation_of_isSome h]
  exact (keeps_pushMessage ..).trans (keeps_modifyConversation (updateVisible_subset _) _ _)

theorem keeps_clearMessages (state : AppState) : Keeps state state.clearMessages := by
  rw [clearMessages]
  split
  · exact ⟨fun _ => rfl, rfl, id⟩
  · exact keeps_modifyConversation (fun _ => List.nil_subset _) _ _

theorem keeps_loadOlderMessages (state : AppState) :
    Keeps state state.loadOlderMessages := by
  rw [loadOlderMessages]
  split
  · exact ⟨fun _ => rfl, rfl, id⟩
  · split
    · exact ⟨fun _ => rfl, rfl, id⟩
    · apply keeps_modifyConversation
      exact fun _ => List.Subset.refl _

/-- The conversation to which a message goes. -/
def incomingPeer (fromUid toUid : ℕ) (state : AppState) : ℕ :=
  if state.uid = some fromUid then
    if toUid = 0 then state.uid.getD 0 else toUid
  else fromUid

theorem keeps_appendIncomingMessage {fromUid toUid : ℕ}
    (h : (state.conversations (state.incomingPeer fromUid toUid)).isSome = true)
    (now : ℕ) (nearBottom : Bool) (msgId : Option ℕ) (content : Text)
    (serverTimestampMs : ℕ) (history : Bool) :
    Keeps state (state.appendIncomingMessage now nearBottom msgId fromUid toUid content
      serverTimestampMs history) := by
  rw [incomingPeer] at h
  simp only [appendIncomingMessage, addConversation_of_isSome h]
  refine (keeps_pushMessage ..).trans (keeps_modifyConversation (fun c => ?_) _ _)
  simp only [apply_ite Conversation.messages, messages_updateVisible, ite_self]
  exact List.Subset.refl _

/-- The conversation may have been added before. -/
theorem appendIncomingMessage_addConversation (now : ℕ) (nearBottom : Bool)
    (msgId : Option ℕ) (fromUid toUid : ℕ) (content : Text) (serverTimestampMs : ℕ)
    (history : Bool) (state : AppState) :
    (state.addConversation now (state.incomingPeer fromUid toUid)).appendIncomingMessage
        now nearBottom msgId fromUid toUid content serverTimestampMs history =
      state.appendIncomingMessage now nearBottom msgId fromUid toUid content
        serverTimestampMs history := by
  have hsome : ((state.addConversation now
      (state.incomingPeer fromUid toUid)).conversations
        (state.incomingPeer fromUid toUid)).isSome = true := by
    simp [isSome_addConversation]
  simp only [incomingPeer] at hsome ⊢
  simp only [appendIncomingMessage, uid_addConversation, addConversation_of_isSome hsome]

/-- What a message that comes in leaves alone. -/
theorem appendIncomingMessage_frame (now : ℕ) (nearBottom : Bool) (msgId : Option ℕ)
    (fromUid toUid : ℕ) (content : Text) (serverTimestampMs : ℕ) (history : Bool)
    (state : AppState) :
    let state' := state.appendIncomingMessage now nearBottom msgId fromUid toUid content
      serverTimestampMs history
    state'.uid = state.uid ∧ state'.connected = state.connected ∧
      state'.activePeerUid = state.activePeerUid ∧
      (∀ p, p ≠ state.incomingPeer fromUid toUid →
        state'.conversations p = state.conversations p) ∧
      ∀ number < state.nextObject, state'.object number = state.object number := by
  simp only [appendIncomingMessage]
  refine ⟨?_, ?_, ?_, fun p hp => ?_, fun number hnumber => ?_⟩
  · exact uid_addConversation ..
  · have hconnected : ∀ p, (state.addConversation now p).connected = state.connected :=
      fun p => by rw [addConversation_eq]
    exact hconnected _
  · exact activePeerUid_addConversation ..
  · rw [incomingPeer] at hp
    simp only [modifyConversation, pushMessage, Function.update_of_ne hp]
    exact conversations_addConversation_of_ne hp now state
  · have hnext : ∀ p, (state.addConversation now p).nextObject = state.nextObject :=
      fun p => by rw [addConversation_eq]
    have hobject : ∀ p, (state.addConversation now p).object = state.object :=
      fun p => by rw [addConversation_eq]
    simp only [modifyConversation, pushMessage, hnext, hobject]
    exact Function.update_of_ne hnumber.ne ..

theorem keeps_sendMessage {peerUid : ℕ} {c : Conversation}
    (hactive : state.getActiveConversation = some (peerUid, c))
    (honline : (!state.connected || !state.isSocketOpen) = false) (now : ℕ)
    (nearBottom : Bool) (value clientMsgId : Text) :
    Keeps state (state.sendMessage now nearBottom value clientMsgId) := by
  simp only [sendMessage, hactive, honline, Bool.false_eq_true, if_false]
  split
  · exact ⟨fun _ => rfl, rfl, id⟩
  · have hkeeps := (keeps_pushMessage peerUid
      { direction := .outgoing, clientMsgId := some clientMsgId
        fromUid := state.uid, toUid := some peerUid
        content := trim value, status := .sending, createdAtMs := now } state).trans
      (keeps_modifyConversation (f := Conversation.resetVisibleMessageWindow)
        (fun _ => List.Subset.refl _) peerUid _)
    exact ⟨hkeeps.isSome, hkeeps.activePeerUid, hkeeps.numbered⟩

theorem keeps_applySendAck {clientMsgId : Text} {pending : PendingMessage}
    (hpending : state.pendingByClientMsgId clientMsgId = some pending) (now : ℕ)
    (nearBottom ok : Bool) (msgId : ℕ) (reason : Text) :
    Keeps state (state.applySendAck now nearBottom ok clientMsgId msgId reason) := by
  simp only [applySendAck, hpending]
  exact ⟨fun _ => rfl, rfl, id⟩

/-- Whether a conversation is open depends on the keys of the map only. -/
theorem openConversation_map (state : AppState) :
    state.openConversation.map Prod.fst = state.noticePeer := by
  ext peerUid
  rw [noticePeer_eq_some_iff, openConversation]
  simp only [Option.map_eq_some_iff, Option.filter_eq_some_iff, decide_eq_true_eq]
  constructor
  · rintro ⟨⟨_, c⟩, ⟨hactive, hne⟩, rfl⟩
    exact ⟨hne, c, hactive⟩
  · rintro ⟨hne, c, hactive⟩
    exact ⟨(peerUid, c), ⟨hactive, hne⟩, rfl⟩

theorem isSome_openConversation (state : AppState) :
    state.openConversation.isSome = state.noticePeer.isSome := by
  rw [← openConversation_map, Option.isSome_map]

theorem isNone_openConversation (state : AppState) :
    state.openConversation.isNone = state.noticePeer.isNone := by
  rw [← openConversation_map, Option.isNone_map]

theorem noticePeer_addConversation
    (h : ∀ peerUid, state.activePeerUid = some peerUid →
      (state.conversations peerUid).isSome = true) (now peerUid : ℕ) :
    (state.addConversation now peerUid).noticePeer = state.noticePeer := by
  rw [AppState.noticePeer, AppState.noticePeer, activePeerUid_addConversation]
  cases hactive : state.activePeerUid with
  | none => rfl
  | some p => simp [Option.filter_some, isSome_addConversation, h p hactive]

theorem openConversation_eq_some_iff {peerUid : ℕ} {c : Conversation} :
    state.openConversation = some (peerUid, c) ↔
      peerUid ≠ 0 ∧ state.activePeerUid = some peerUid ∧
        state.conversations peerUid = some c := by
  rw [openConversation, Option.filter_eq_some_iff, getActiveConversation_eq_some_iff,
    decide_eq_true_eq, and_comm]

theorem Keeps.noticePeer (h : Keeps state state') : state'.noticePeer = state.noticePeer := by
  rw [AppState.noticePeer, AppState.noticePeer, h.activePeerUid]
  congr 1
  funext p
  rw [h.isSome]

end AppState

namespace PageState

open AppState

variable {state state' : PageState}

/-- `peers` has the keys of the map, each once; the active conversation is one of
them. -/
structure WellFormed (state : PageState) : Prop where
  nodup : state.peers.Nodup
  mem_peers : ∀ peerUid,
    peerUid ∈ state.peers ↔ (state.app.conversations peerUid).isSome = true
  active : ∀ peerUid, state.app.activePeerUid = some peerUid →
    (state.app.conversations peerUid).isSome = true
  numbered : state.app.Numbered

theorem WellFormed.keeps (h : state.WellFormed) (hpeers : state'.peers = state.peers)
    (hkeeps : Keeps state.app state'.app) : state'.WellFormed where
  nodup := hpeers ▸ h.nodup
  mem_peers peerUid := by
    rw [hpeers, hkeeps.isSome]
    exact h.mem_peers peerUid
  active peerUid hactive := by
    rw [hkeeps.isSome]
    exact h.active peerUid (hkeeps.activePeerUid ▸ hactive)
  numbered := hkeeps.numbered h.numbered

/-- The timer is set as long as something is due. -/
structure Timed (state : PageState) : Prop where
  list : state.incomingRenderTimer = state.incomingRenderNeedsList
  messages : state.incomingRenderNeedsMessages = true →
    state.incomingRenderNeedsList = true

/-- The active conversation is to be drawn when the timer fires. -/
def messagesDue (state : PageState) : Bool :=
  state.incomingRenderNeedsMessages &&
    state.incomingRenderPeerUid = state.app.activePeerUid

theorem isSome_of_mem_conversationItems {browser : Browser} {item : ConversationItem}
    (h : item ∈ state.conversationItems browser) :
    (state.app.conversations item.peerUid).isSome = true := by
  obtain ⟨⟨peerUid, c⟩, hmem, rfl⟩ := List.mem_map.mp h
  rw [listed, List.mem_mergeSort, List.mem_filter] at hmem
  obtain ⟨p, -, hp⟩ := List.mem_filterMap.mp hmem.1
  obtain ⟨c', hc', heq⟩ := Option.map_eq_some_iff.mp hp
  cases heq
  exact Option.isSome_iff_exists.mpr ⟨c, hc'⟩

/-- What the list shows of a conversation. -/
def summary (conversation : Conversation) : Text × ℕ × ℕ :=
  (conversation.lastMessage, conversation.lastAtMs, conversation.unread)

def notEarlier (a b : ℕ × Text × ℕ × ℕ) : Bool :=
  b.2.2.1 ≤ a.2.2.1

/-- `listed` with the summaries. -/
def summaries (state : PageState) : List (ℕ × Text × ℕ × ℕ) :=
  (state.peers.filterMap fun peerUid =>
      ((state.app.conversations peerUid).map summary).map fun entry => (peerUid, entry))
    |>.filter (fun entry => entry.1 ≠ 0)
    |>.mergeSort notEarlier

theorem listed_map_summary (state : PageState) :
    (state.listed.map fun entry => (entry.1, summary entry.2)) = state.summaries := by
  refine (List.map_mergeSort (s := notEarlier) fun _ _ _ _ => rfl).trans ?_
  rw [summaries]
  congr 1
  refine (List.filter_map (p := fun x : ℕ × Text × ℕ × ℕ => x.1 ≠ 0)).symm.trans
    (congrArg (List.filter _) ?_)
  rw [List.map_filterMap]
  congr 1
  funext peerUid
  rw [Option.map_map, Option.map_map]
  rfl

/-- The list depends on which conversation is active and on the summaries. -/
theorem conversationItems_congr (browser : Browser) (hpeers : state'.peers = state.peers)
    (hactive : state'.app.activePeerUid = state.app.activePeerUid)
    (hsummary : ∀ peerUid, (state'.app.conversations peerUid).map summary =
      (state.app.conversations peerUid).map summary) :
    state'.conversationItems browser = state.conversationItems browser := by
  let item (entry : ℕ × Text × ℕ × ℕ) : ConversationItem :=
    browser.conversationItem state.app.activePeerUid entry.1
      { lastMessage := entry.2.1, lastAtMs := entry.2.2.1, unread := entry.2.2.2 }
  have hitems : ∀ s : PageState, s.app.activePeerUid = state.app.activePeerUid →
      s.conversationItems browser = s.summaries.map item := by
    intro s hs
    rw [← listed_map_summary, List.map_map, conversationItems, hs]
    rfl
  rw [hitems state' hactive, hitems state rfl, summaries, summaries, hpeers]
  simp only [hsummary]

theorem summary_loadOlderMessages (app : AppState) (peerUid : ℕ) :
    (app.loadOlderMessages.conversations peerUid).map summary =
      (app.conversations peerUid).map summary := by
  rw [loadOlderMessages]
  split
  · rfl
  · split
    · rfl
    · simp only [modifyConversation, Function.update_apply]
      split
      · next heq =>
          rw [heq, Option.map_map]
          rfl
      · rfl

/-- The header depends on the user, the session, the connection and on which
conversation is open. -/
theorem header_congr (browser : Browser) (huid : state'.app.uid = state.app.uid)
    (hsession : state'.sessionId = state.sessionId)
    (hconnected : state'.app.connected = state.app.connected)
    (hpeer : state'.app.noticePeer = state.app.noticePeer) :
    state'.header browser = state.header browser := by
  have hsame : state'.app.openConversation.map Prod.fst =
      state.app.openConversation.map Prod.fst := by
    rw [openConversation_map, openConversation_map, hpeer]
  simp only [header, huid, hsession, hconnected]
  cases hopen' : state'.app.openConversation with
  | none =>
      rw [hopen', Option.map_none, eq_comm, Option.map_eq_none_iff] at hsame
      rw [hsame]
  | some active =>
      rw [hopen', Option.map_some, eq_comm, Option.map_eq_some_iff] at hsame
      obtain ⟨active', hopen, heq⟩ := hsame
      rw [hopen]
      simp only [Option.elim_some, heq]

end PageState

/-! ## Drawing -/

namespace Page

open AppState PageState

variable {browser : Browser} {page page' : Page}

/-- The drawing changes neither the state nor what is shown of the page. -/
theorem frame_renderMessages (browser : Browser) (now : ℕ) (page : Page) :
    (page.renderMessages browser now).state = page.state ∧
      (page.renderMessages browser now).els.chatView = page.els.chatView ∧
      (page.renderMessages browser now).els.loginButtonDisabled =
        page.els.loginButtonDisabled := by
  rw [renderMessages]
  split
  · exact ⟨rfl, rfl, rfl⟩
  · exact ⟨rfl, rfl, rfl⟩

@[simp] theorem state_render (now : ℕ) (page : Page) :
    (page.render browser now).state = page.state :=
  (frame_renderMessages browser now _).1

@[simp] theorem chatView_render (now : ℕ) (page : Page) :
    (page.render browser now).els.chatView = page.els.chatView :=
  (frame_renderMessages browser now _).2.1

@[simp] theorem loginButton_render (now : ℕ) (page : Page) :
    (page.render browser now).els.loginButtonDisabled = page.els.loginButtonDisabled :=
  (frame_renderMessages browser now _).2.2

/-- The two lists may be drawn in either order. -/
theorem renderConversationList_renderMessages (now : ℕ) (page : Page) :
    (page.renderMessages browser now).renderConversationList browser =
      page.render browser now := by
  cases hopen : page.state.app.openConversation with
  | none =>
      rw [render, renderMessages, renderMessages, hopen]
      simp only [renderConversationList, hopen]
      rfl
  | some active =>
      rw [render, renderMessages, renderMessages, hopen]
      simp only [renderConversationList, hopen]
      rfl

/-- The active conversation is shown as it is. -/
def MessagesDrawn (browser : Browser) (page : Page) : Prop :=
  match page.state.app.openConversation with
  | none => page.els.messageList = [] ∧ page.els.emptyChatHidden = false
  | some (_, conversation) =>
      page.els.emptyChatHidden = !conversation.messages.isEmpty ∧
        ∃ now, page.els.messageList = page.state.messageItems browser now conversation

/-- What is not drawn as it is, is due. -/
structure Current (browser : Browser) (page : Page) : Prop where
  timed : page.state.Timed
  rows : ∀ item ∈ page.els.conversationList,
    (page.state.app.conversations item.peerUid).isSome = true
  list : page.state.incomingRenderNeedsList = false →
    page.els.conversationList = page.state.conversationItems browser
  messages : page.state.messagesDue = false → MessagesDrawn browser page
  hidden : page.els.messageListHidden = page.state.app.openConversation.isNone
  composer : page.els.composer =
    (page.state.app.connected && page.state.app.openConversation.isSome)
  header : page.els.header = page.state.header browser

theorem messagesDrawn_renderMessages (now : ℕ) (page : Page) :
    MessagesDrawn browser (page.renderMessages browser now) := by
  cases hopen : page.state.app.openConversation with
  | none =>
      rw [renderMessages, hopen]
      simp only [MessagesDrawn, updateHeader, setComposerEnabled, hopen, and_self]
  | some active =>
      rw [renderMessages, hopen]
      simp only [MessagesDrawn, updateHeader, setComposerEnabled, hopen, true_and]
      exact ⟨now, rfl⟩

/-- The drawing of the active conversation depends on it and on its messages. -/
theorem messagesDrawn_congr (h : MessagesDrawn browser page)
    (hnumbered : page.state.app.Numbered)
    (hels : page'.els = page.els)
    (hactive : page'.state.app.activePeerUid = page.state.app.activePeerUid)
    (hconversations : ∀ peerUid, page.state.app.activePeerUid = some peerUid →
      page'.state.app.conversations peerUid = page.state.app.conversations peerUid)
    (hobject : ∀ number < page.state.app.nextObject,
      page'.state.app.object number = page.state.app.object number) :
    MessagesDrawn browser page' := by
  have hopen : page'.state.app.openConversation = page.state.app.openConversation := by
    ext ⟨peerUid, c⟩
    rw [openConversation_eq_some_iff, openConversation_eq_some_iff, hactive]
    constructor
    · rintro ⟨hne, hpeer, hc⟩
      exact ⟨hne, hpeer, hconversations peerUid hpeer ▸ hc⟩
    · rintro ⟨hne, hpeer, hc⟩
      exact ⟨hne, hpeer, (hconversations peerUid hpeer).trans hc⟩
  rw [MessagesDrawn] at h ⊢
  rw [hopen, hels]
  cases hactive' : page.state.app.openConversation with
  | none =>
      rw [hactive'] at h
      exact h
  | some active =>
      obtain ⟨-, -, hc⟩ := openConversation_eq_some_iff.mp hactive'
      rw [hactive'] at h
      obtain ⟨hempty, now, hitems⟩ := h
      refine ⟨hempty, now, hitems.trans (List.map_congr_left fun number hnumber => ?_)⟩
      have hmem := active.2.getVisibleMessages_suffix.mem hnumber
      rw [hobject number (hnumbered _ _ hc number hmem)]

theorem renderMessages_els (browser : Browser) (now : ℕ) (page : Page) :
    (page.renderMessages browser now).els.messageListHidden =
        page.state.app.openConversation.isNone ∧
      (page.renderMessages browser now).els.composer =
        (page.state.app.connected && page.state.app.openConversation.isSome) ∧
      (page.renderMessages browser now).els.header = page.state.header browser ∧
      (page.renderMessages browser now).els.conversationList =
        page.els.conversationList := by
  cases hopen : page.state.app.openConversation with
  | none =>
      rw [renderMessages, hopen]
      simp [updateHeader, setComposerEnabled]
  | some active =>
      rw [renderMessages, hopen]
      simp [updateHeader, setComposerEnabled, hopen]

/-- Drawing both lists leaves nothing that is not as it is. -/
theorem current_render (htimed : page.state.Timed) (now : ℕ) :
    Current browser (page.render browser now) := by
  obtain ⟨hhidden, hcomposer, hheader, hlist⟩ :=
    renderMessages_els browser now (page.renderConversationList browser)
  have hrows : (page.render browser now).els.conversationList =
      page.state.conversationItems browser := hlist
  refine ⟨?_, ?_, ?_, fun _ => messagesDrawn_renderMessages now _, ?_, ?_, ?_⟩
  · rwa [state_render]
  · rw [hrows, state_render]
    exact fun item hitem => isSome_of_mem_conversationItems hitem
  · rw [hrows, state_render]
    exact fun _ => rfl
  · rw [state_render]
    exact hhidden
  · rw [state_render]
    exact hcomposer
  · rw [state_render]
    exact hheader

theorem Current.updateHeader (h : Current browser page) :
    Current browser (page.updateHeader browser) :=
  ⟨h.timed, h.rows, h.list, h.messages, h.hidden, h.composer, rfl⟩

theorem Current.setComposerEnabled (h : Current browser page) :
    Current browser (page.setComposerEnabled page.state.app.connected) :=
  ⟨h.timed, h.rows, h.list, h.messages, h.hidden, rfl, h.header⟩

/-- What is done while the chat is shown. -/
structure Updates (browser : Browser) (page page' : Page) : Prop where
  wellFormed : page.state.WellFormed → page'.state.WellFormed
  chatView : page'.els.chatView = page.els.chatView
  loginButton : page'.els.loginButtonDisabled = page.els.loginButtonDisabled
  current : page.state.WellFormed → Current browser page → Current browser page'

theorem Updates.refl (page : Page) : Updates browser page page :=
  ⟨id, rfl, rfl, fun _ => id⟩

theorem Updates.trans {page'' : Page} (h : Updates browser page page')
    (h' : Updates browser page' page'') : Updates browser page page'' :=
  ⟨fun hwell => h'.wellFormed (h.wellFormed hwell), h'.chatView.trans h.chatView,
    h'.loginButton.trans h.loginButton,
    fun hwell hcurrent => h'.current (h.wellFormed hwell) (h.current hwell hcurrent)⟩

/-- Whatever is done to the conversations, if both lists are drawn afterwards. -/
theorem updates_render (hview : page'.els.chatView = page.els.chatView)
    (hlogin : page'.els.loginButtonDisabled = page.els.loginButtonDisabled)
    (hwell : page.state.WellFormed → page'.state.WellFormed)
    (htimed : page.state.Timed → page'.state.Timed) (now : ℕ) :
    Updates browser page (page'.render browser now) where
  wellFormed h := by
    rw [state_render]
    exact hwell h
  chatView := by rw [chatView_render, hview]
  loginButton := by rw [loginButton_render, hlogin]
  current _ hcurrent := current_render (htimed hcurrent.timed) now

/-! ## The functions of the page -/

theorem wellFormed_addConversation (h : page.state.WellFormed) (now peerUid : ℕ) :
    (page.addConversation now peerUid).state.WellFormed where
  nodup := by
    simp only [addConversation]
    split
    · exact h.nodup
    · next hnone =>
        refine List.Nodup.append h.nodup (List.nodup_singleton _) ?_
        rw [List.disjoint_singleton, h.mem_peers]
        exact hnone
  mem_peers p := by
    simp only [addConversation, isSome_addConversation, Bool.or_eq_true,
      decide_eq_true_eq]
    split
    · next hsome =>
        rw [h.mem_peers]
        constructor
        · exact .inr
        · rintro (rfl | hp)
          · exact hsome
          · exact hp
    · rw [List.mem_append, List.mem_singleton, h.mem_peers, or_comm]
  active p hactive := by
    have hactive' : page.state.app.activePeerUid = some p :=
      (activePeerUid_addConversation ..).symm.trans hactive
    simp only [addConversation, isSome_addConversation, h.active p hactive', Bool.or_true]
  numbered := h.numbered.addConversation now peerUid

theorem isSome_addConversation_self (now peerUid : ℕ) (page : Page) :
    ((page.addConversation now peerUid).state.app.conversations peerUid).isSome =
      true := by
  simp [addConversation, isSome_addConversation]

theorem updates_addSystemMessageToConversation (now : ℕ) (measured : Bool)
    (peerUid : ℕ) (content : Text) (page : Page) :
    Updates browser page
      (page.addSystemMessageToConversation browser now measured peerUid content) := by
  rw [addSystemMessageToConversation]
  apply updates_render
  · rfl
  · rfl
  · intro h
    exact (wellFormed_addConversation h now peerUid).keeps rfl
      (keeps_addSystemMessageToConversation (isSome_addConversation_self ..) ..)
  · exact fun h => ⟨h.list, h.messages⟩

theorem updates_addSystemMessageToActive (now : ℕ) (measured : Bool) (content : Text)
    (page : Page) :
    Updates browser page
      (page.addSystemMessageToActive browser now measured content) := by
  rw [addSystemMessageToActive]
  split
  · next hnone =>
      refine ⟨id, rfl, rfl, fun _ h =>
        ⟨h.timed, h.rows, h.list, fun hdue => ?_, h.hidden, h.composer, h.header⟩⟩
      have hdrawn := h.messages hdue
      simp only [MessagesDrawn, hnone] at hdrawn ⊢
      exact ⟨hdrawn.1, trivial⟩
  · exact updates_addSystemMessageToConversation ..

theorem wellFormed_selectConversation (h : page.state.WellFormed) (now peerUid : ℕ) :
    WellFormed { (page.addConversation now peerUid).state with
      app := (page.addConversation now peerUid).state.app.selectConversation now
        peerUid } := by
  have hadded := wellFormed_addConversation h now peerUid
  have hsome := isSome_addConversation_self now peerUid page
  rw [AppState.selectConversation, addConversation_of_isSome hsome]
  let state : PageState := { (page.addConversation now peerUid).state with
    app.activePeerUid := some peerUid }
  have hselected : state.WellFormed := by
    refine ⟨hadded.nodup, hadded.mem_peers, fun p hp => ?_, hadded.numbered⟩
    cases hp
    exact hsome
  apply hselected.keeps
  · rfl
  · apply keeps_modifyConversation
    exact fun _ => List.Subset.refl _

theorem updates_selectConversation (now peerUid : ℕ) (page : Page) :
    Updates browser page (page.selectConversation browser now peerUid) := by
  let page₁ := page.addConversation now peerUid
  let page₂ : Page :=
    { page₁ with state.app := page₁.state.app.selectConversation now peerUid }
  have hupdates : Updates browser page (page₂.render browser now) := by
    apply updates_render
    · rfl
    · rfl
    · exact fun h => wellFormed_selectConversation h now peerUid
    · exact fun h => ⟨h.list, h.messages⟩
  exact ⟨hupdates.wellFormed, hupdates.chatView, hupdates.loginButton,
    fun hwell h => (hupdates.current hwell h).updateHeader.setComposerEnabled⟩

theorem updates_clearMessages (now : ℕ) (page : Page) :
    Updates browser page (page.clearMessages browser now) := by
  rw [clearMessages]
  split
  · exact .refl page
  · rw [renderConversationList_renderMessages]
    apply updates_render
    · rfl
    · rfl
    · exact fun h => h.keeps rfl (keeps_clearMessages _)
    · exact fun h => ⟨h.list, h.messages⟩

theorem updates_loadOlderMessages (now : ℕ) (page : Page) :
    Updates browser page (page.loadOlderMessages browser now) := by
  rw [loadOlderMessages]
  split
  · exact .refl page
  · split
    · exact .refl page
    · let page₁ : Page := { page with state.app := page.state.app.loadOlderMessages }
      have hkeeps : Keeps page.state.app page₁.state.app := keeps_loadOlderMessages _
      obtain ⟨hhidden, hcomposer, hheader, hlist⟩ :=
        renderMessages_els browser now page₁
      have hframe := frame_renderMessages browser now page₁
      refine ⟨fun h => ?_, hframe.2.1, hframe.2.2, fun _ h => ?_⟩
      · rw [hframe.1]
        exact h.keeps rfl hkeeps
      · have hitems : page₁.state.conversationItems browser =
            page.state.conversationItems browser :=
          conversationItems_congr browser rfl hkeeps.activePeerUid
            (summary_loadOlderMessages page.state.app)
        refine ⟨?_, ?_, ?_, fun _ => messagesDrawn_renderMessages now _, ?_, ?_, ?_⟩
        · rw [hframe.1]
          exact ⟨h.timed.list, h.timed.messages⟩
        · rw [hlist, hframe.1]
          intro item hitem
          rw [hkeeps.isSome]
          exact h.rows item hitem
        · rw [hlist, hframe.1, hitems]
          exact h.list
        · rw [hframe.1]
          exact hhidden
        · rw [hframe.1]
          exact hcomposer
        · rw [hframe.1]
          exact hheader

theorem addConversation_addConversation (now peerUid : ℕ) (page : Page) :
    (page.addConversation now peerUid).addConversation now peerUid =
      page.addConversation now peerUid := by
  have hsome := isSome_addConversation_self now peerUid page
  generalize page.addConversation now peerUid = page₁ at hsome ⊢
  simp only [addConversation, addConversation_of_isSome hsome, hsome, if_true]

theorem updates_newChat (now : ℕ) (measured : Bool) (value : Text) (page : Page) :
    Updates browser page (page.newChat browser now measured value) := by
  rw [newChat]
  split
  · exact updates_addSystemMessageToActive ..
  · next peerUid _ =>
      refine Updates.trans ?_ (updates_selectConversation now peerUid _)
      split
      · have hsame : ∀ content,
            (page.addConversation now peerUid).addSystemMessageToConversation browser now
              measured peerUid content =
            page.addSystemMessageToConversation browser now measured peerUid content := by
          intro content
          simp only [addSystemMessageToConversation, addConversation_addConversation]
          rfl
        rw [hsame]
        exact updates_addSystemMessageToConversation ..
      · exact .refl page

theorem updates_sendMessage (now : ℕ) (measured : Bool) (value clientMsgId : Text)
    (page : Page) :
    Updates browser page (page.sendMessage browser now measured value clientMsgId) := by
  rw [sendMessage]
  split
  · exact updates_addSystemMessageToActive ..
  · next peerUid c hactive =>
      split
      · exact updates_addSystemMessageToConversation ..
      · next honline =>
          split
          · exact .refl page
          · apply updates_render
            · rfl
            · rfl
            · exact fun h => h.keeps rfl
                (keeps_sendMessage hactive (Bool.eq_false_of_not_eq_true honline) ..)
            · exact fun h => ⟨h.list, h.messages⟩

theorem updates_applySendAck (now : ℕ) (measured ok : Bool) (clientMsgId : Text)
    (msgId : ℕ) (reason : Text) (page : Page) :
    Updates browser page
      (page.applySendAck browser now measured ok clientMsgId msgId reason) := by
  rw [applySendAck]
  split
  · exact updates_addSystemMessageToActive ..
  · next pending hpending =>
      apply updates_render
      · rfl
      · rfl
      · exact fun h => h.keeps rfl (keeps_applySendAck hpending ..)
      · exact fun h => ⟨h.list, h.messages⟩

theorem scheduleIncomingRender_eq (renderMessages : Bool) (peerUid : ℕ) (page : Page) :
    page.scheduleIncomingRender renderMessages peerUid =
      { page with
        state := { page.state with
          incomingRenderTimer := true
          incomingRenderNeedsList := true
          incomingRenderNeedsMessages :=
            renderMessages || page.state.incomingRenderNeedsMessages
          incomingRenderPeerUid :=
            if renderMessages then some peerUid else page.state.incomingRenderPeerUid } } := by
  cases renderMessages with
  | true => rfl
  | false => rfl

/-- A message that comes in is due, and so is its conversation if it is active. -/
theorem updates_appendIncomingMessage (now : ℕ) (measured : Bool) (msgId : Option ℕ)
    (fromUid toUid : ℕ) (content : Text) (serverTimestampMs : ℕ) (history : Bool)
    (page : Page) :
    Updates browser page (page.appendIncomingMessage now measured msgId fromUid toUid
      content serverTimestampMs history) := by
  let peerUid := page.state.app.incomingPeer fromUid toUid
  let nearBottom := page.isMessageListNearBottom measured
  let page₁ := page.addConversation now peerUid
  let page₂ : Page := { page₁ with
    state.app := page₁.state.app.appendIncomingMessage now nearBottom msgId fromUid toUid
      content serverTimestampMs history }
  have heq : page.appendIncomingMessage now measured msgId fromUid toUid content
      serverTimestampMs history =
        page₂.scheduleIncomingRender (page.state.app.activePeerUid = some peerUid)
          peerUid := by
    rw [appendIncomingMessage]
    simp only [page₂, page₁, peerUid, nearBottom, incomingPeer, addConversation,
      activePeerUid_addConversation]
  have happ : page₂.state.app = page.state.app.appendIncomingMessage now nearBottom msgId
      fromUid toUid content serverTimestampMs history :=
    appendIncomingMessage_addConversation ..
  obtain ⟨huid, hconnected, hactive, hconversations, hobject⟩ :=
    appendIncomingMessage_frame now nearBottom msgId fromUid toUid content
      serverTimestampMs history page.state.app
  rw [← happ] at huid hconnected hactive hconversations hobject
  have hkeeps : Keeps page₁.state.app page₂.state.app := by
    apply keeps_appendIncomingMessage
    have hsame : page₁.state.app.incomingPeer fromUid toUid = peerUid := by
      simp only [incomingPeer, page₁, addConversation, uid_addConversation, peerUid]
    rw [hsame]
    exact isSome_addConversation_self now peerUid page
  rw [heq, scheduleIncomingRender_eq]
  refine ⟨fun hwell => ?_, rfl, rfl, fun hwell h => ?_⟩
  · exact (wellFormed_addConversation hwell now peerUid).keeps rfl
      ⟨hkeeps.isSome, hkeeps.activePeerUid, hkeeps.numbered⟩
  have hpeer : page₂.state.app.noticePeer = page.state.app.noticePeer :=
    hkeeps.noticePeer.trans (noticePeer_addConversation hwell.active now peerUid)
  refine ⟨⟨rfl, fun _ => rfl⟩, fun item hitem => ?_, fun hlist => ?_, fun hdue => ?_,
    ?_, ?_, ?_⟩
  · have hsome := h.rows item hitem
    simp only [hkeeps.isSome, page₁, addConversation, isSome_addConversation, hsome,
      Bool.or_true]
  · cases hlist
  · have hother : page.state.app.activePeerUid ≠ some peerUid := by
      intro hsame
      simp [messagesDue, hsame, hactive] at hdue
    simp only [messagesDue, hother, decide_false, Bool.false_or, hactive] at hdue
    exact messagesDrawn_congr (h.messages hdue) hwell.numbered rfl hactive
      (fun p hp => hconversations p fun heq => hother (hp.trans (congrArg some heq)))
      hobject
  · have hhidden := h.hidden
    rw [isNone_openConversation] at hhidden ⊢
    rw [hpeer]
    exact hhidden
  · have hcomposer := h.composer
    rw [isSome_openConversation] at hcomposer ⊢
    rw [hpeer, hconnected]
    exact hcomposer
  · rw [show page₂.els.header = page.els.header from rfl, h.header]
    exact (header_congr browser huid rfl hconnected hpeer).symm

/-- What the timer draws: the list if it is due, which it is then as it is now. -/
theorem flushIncomingRender_cases (browser : Browser) (now : ℕ) (page : Page) :
    ∃ items, (Current browser page → items = page.state.conversationItems browser) ∧
      page.flushIncomingRender browser now =
        let drawn : Page :=
          { page.forgetIncomingRender with els.conversationList := items }
        if page.state.messagesDue then drawn.renderMessages browser now else drawn := by
  cases hlist : page.state.incomingRenderNeedsList with
  | true =>
      refine ⟨page.state.conversationItems browser, fun _ => rfl, ?_⟩
      rw [flushIncomingRender, hlist]
      rfl
  | false =>
      refine ⟨page.els.conversationList, fun h => h.list hlist, ?_⟩
      rw [flushIncomingRender, hlist]
      rfl

theorem state_flushIncomingRender (browser : Browser) (now : ℕ) (page : Page) :
    (page.flushIncomingRender browser now).state = page.forgetIncomingRender.state := by
  obtain ⟨items, -, heq⟩ := flushIncomingRender_cases browser now page
  rw [heq]
  dsimp only
  split
  · exact (frame_renderMessages browser now _).1
  · rfl

/-- When the timer fires, what is due is drawn. -/
theorem updates_flushIncomingRender (now : ℕ) (page : Page) :
    Updates browser page (page.flushIncomingRender browser now) := by
  have hstate := state_flushIncomingRender browser now page
  obtain ⟨items, hitems, heq⟩ := flushIncomingRender_cases browser now page
  let drawn : Page := { page.forgetIncomingRender with els.conversationList := items }
  have hframe := frame_renderMessages browser now drawn
  have hels := renderMessages_els browser now drawn
  have hwell : page.state.WellFormed →
      (page.flushIncomingRender browser now).state.WellFormed := by
    intro h
    rw [hstate]
    exact h.keeps rfl ⟨fun _ => rfl, rfl, id⟩
  have hrows : Current browser page → ∀ item ∈ items,
      (page.state.app.conversations item.peerUid).isSome = true := by
    intro h item hitem
    rw [hitems h] at hitem
    exact isSome_of_mem_conversationItems hitem
  have hview : (page.flushIncomingRender browser now).els.chatView = page.els.chatView ∧
      (page.flushIncomingRender browser now).els.loginButtonDisabled =
        page.els.loginButtonDisabled := by
    rw [heq]
    dsimp only
    split
    · exact hframe.2
    · exact ⟨rfl, rfl⟩
  refine ⟨hwell, hview.1, hview.2, fun _ h => ?_⟩
  cases hdue : page.state.messagesDue with
  | true =>
      rw [heq, hdue]
      obtain ⟨hhidden, hcomposer, hheader, hlist⟩ := hels
      refine ⟨?_, ?_, ?_, fun _ => messagesDrawn_renderMessages now _, ?_, ?_, ?_⟩
      · rw [if_pos rfl, hframe.1]
        exact ⟨rfl, id⟩
      · rw [if_pos rfl, hlist, hframe.1]
        exact hrows h
      · rw [if_pos rfl, hlist, hframe.1]
        exact fun _ => hitems h
      · rw [if_pos rfl, hframe.1]
        exact hhidden
      · rw [if_pos rfl, hframe.1]
        exact hcomposer
      · rw [if_pos rfl, hframe.1]
        exact hheader
  | false =>
      rw [heq, hdue]
      exact ⟨⟨rfl, id⟩, hrows h, fun _ => hitems h, fun _ => h.messages hdue, h.hidden,
        h.composer, h.header⟩

/-- What is kept of the WebSocket and of the numbers of messages is not drawn. -/
theorem updates_records (ws : Option PageSocket) (sent : List PageFrame)
    (renderedMessageIds : Finset ℕ) (page : Page) :
    Updates browser page { page with
      state.app := { page.state.app with ws, sent, renderedMessageIds } } :=
  ⟨fun h => h.keeps rfl ⟨fun _ => rfl, rfl, id⟩, rfl, rfl, fun _ h =>
    ⟨⟨h.timed.list, h.timed.messages⟩, h.rows, h.list, h.messages, h.hidden, h.composer,
      h.header⟩⟩

theorem updates_wsStatus (wsStatus : Text) (page : Page) :
    Updates browser page { page with els.wsStatus := wsStatus } :=
  ⟨id, rfl, rfl, fun _ h =>
    ⟨h.timed, h.rows, h.list, h.messages, h.hidden, h.composer, h.header⟩⟩

theorem updates_sendMessageAck (msgId : Option ℕ) (page : Page) :
    Updates browser page
      { page with state.app := page.state.app.sendMessageAck msgId } := by
  cases msgId with
  | none => exact .refl page
  | some msgId =>
      rw [AppState.sendMessageAck.eq_def]
      dsimp only
      split
      · exact updates_records page.state.app.ws _ page.state.app.renderedMessageIds page
      · exact .refl page

theorem updates_handleIncomingMessage (now : ℕ) (measured : Bool)
    (msgId fromUid toUid : ℕ) (content : Text) (serverTimestampMs : ℕ) (history : Bool)
    (page : Page) :
    Updates browser page (page.handleIncomingMessage now measured msgId fromUid toUid
      content serverTimestampMs history) := by
  rw [handleIncomingMessage]
  generalize parsePositiveInteger (.ofNat msgId) = number
  have hacked : ∀ page' : Page, page' =
      (if history = true then page
        else { page with state.app := page.state.app.sendMessageAck number }) →
      Updates browser page page' := by
    rintro page' rfl
    split
    · exact .refl page
    · exact updates_sendMessageAck number page
  generalize hpage : (if history = true then page
    else { page with state.app := page.state.app.sendMessageAck number }) = page'
  have hupdates := hacked page' hpage.symm
  split
  · exact hupdates
  · exact hupdates.trans ((updates_records page'.state.app.ws page'.state.app.sent _
      page').trans (updates_appendIncomingMessage ..))

theorem updates_handleServerMessage (now : ℕ) (measured : Bool)
    (message : ServerMessage) (page : Page) :
    Updates browser page (page.handleServerMessage browser now measured message) := by
  rw [handleServerMessage.eq_def]
  split
  · exact updates_addSystemMessageToActive ..
  · apply updates_render
    · rfl
    · rfl
    · exact fun h => h.keeps rfl ⟨fun _ => rfl, rfl, id⟩
    · exact fun h => ⟨h.list, h.messages⟩
  · exact updates_applySendAck ..
  · exact updates_handleIncomingMessage ..
  · exact updates_addSystemMessageToActive ..
  · exact .refl page
  · exact updates_addSystemMessageToActive ..

/-! ## Events -/

/-- The login is not shown together with the chat; the chat is current. -/
structure InOrder (browser : Browser) (page : Page) : Prop where
  wellFormed : page.state.WellFormed
  login : page.els.loginButtonDisabled = true → page.els.chatView = false
  current : page.els.chatView = true → Current browser page

theorem InOrder.updates (h : InOrder browser page) (hupdates : Updates browser page page') :
    InOrder browser page' where
  wellFormed := hupdates.wellFormed h.wellFormed
  login hlogin := by
    rw [hupdates.chatView]
    exact h.login (hupdates.loginButton.symm.trans hlogin)
  current hshown :=
    hupdates.current h.wellFormed (h.current (hupdates.chatView.symm.trans hshown))

theorem wellFormed_reset (page : Page) : page.resetChatState.state.WellFormed where
  nodup := List.nodup_nil
  mem_peers _ := iff_of_false List.not_mem_nil Bool.false_ne_true
  active _ hactive := by cases hactive
  numbered _ _ hc := by cases hc

theorem inOrder_loaded (now : ℕ) : InOrder browser (loaded browser now) where
  wellFormed := by
    rw [loaded, state_render]
    exact wellFormed_reset {}
  login _ := by
    rw [loaded, chatView_render]
  current hshown := by
    rw [loaded, chatView_render] at hshown
    cases hshown

theorem inOrder_login (now uid : ℕ) (page : Page) :
    InOrder browser (page.login browser now uid) := by
  let page₁ : Page :=
    { page.resetChatState with state.app.uid := some uid, els.chatView := true }
  let page₂ := (page₁.updateHeader browser).render browser now
  have hcurrent : Current browser page₂ := current_render ⟨rfl, id⟩ now
  have hstate : page₂.state = page₁.state := state_render now _
  have hheader : page₂.els.header = page₁.state.header browser := by
    rw [← hstate]
    exact hcurrent.header
  have hwell : page₁.state.WellFormed := (wellFormed_reset page).keeps rfl
    ⟨fun _ => rfl, rfl, id⟩
  have hlogin : page.login browser now uid =
      { page₂ with
        state.app := { page₂.state.app with ws := some .connecting, connected := false }
        state.sessionId := none
        els.wsStatus := textOf "连接中"
        els.composer := false
        els.loginButtonDisabled := false } := rfl
  rw [hlogin]
  refine ⟨?_, fun hdisabled => ?_, fun _ => ⟨?_, hcurrent.rows, hcurrent.list,
    hcurrent.messages, hcurrent.hidden, rfl, ?_⟩⟩
  · rw [← hstate] at hwell
    exact hwell.keeps rfl ⟨fun _ => rfl, rfl, id⟩
  · cases hdisabled
  · exact ⟨hcurrent.timed.list, hcurrent.timed.messages⟩
  · rw [show page₂.els.header = _ from hheader]
    exact header_congr browser (congrArg (·.app.uid) hstate).symm rfl rfl
      (congrArg (·.app.noticePeer) hstate).symm

/-- Every event keeps the page in order. -/
theorem InOrder.handle (h : InOrder browser page) (now : ℕ) {event : PageEvent}
    (henabled : page.enabled event = true) :
    InOrder browser (page.handle browser now event) := by
  cases event with
  | submitLogin =>
      have hhidden : page.els.chatView = false := by
        simp only [enabled, Bool.and_eq_true, Bool.not_eq_true'] at henabled
        exact henabled.1
      refine ⟨h.wellFormed, fun _ => hhidden, fun hshown => ?_⟩
      rw [show page.els.chatView = true from hshown] at hhidden
      cases hhidden
  | wsError => exact h.updates (updates_wsStatus _ page)
  | incomingRender => exact h.updates (updates_flushIncomingRender now page)
  | app event =>
      cases event with
      | login uid => exact inOrder_login now uid page
      | loginFailed =>
          have hhidden : page.els.chatView = false := h.login henabled
          refine ⟨h.wellFormed.keeps rfl ⟨fun _ => rfl, rfl, id⟩, fun _ => hhidden,
            fun hshown => ?_⟩
          rw [show page.els.chatView = true from hshown] at hhidden
          cases hhidden
      | logout =>
          refine ⟨wellFormed_reset page.closeWebSocket, fun _ => rfl, fun hshown => ?_⟩
          cases hshown
      | wsOpen =>
          exact h.updates ((updates_records (some .open) page.state.app.sent
            page.state.app.renderedMessageIds page).trans (updates_wsStatus _ _))
      | wsMessage now' measured message =>
          exact h.updates (updates_handleServerMessage now' measured message page)
      | wsClosing =>
          exact h.updates (updates_records (some .closing) page.state.app.sent
            page.state.app.renderedMessageIds page)
      | wsClose =>
          refine h.updates ⟨fun hwell => hwell.keeps rfl ⟨fun _ => rfl, rfl, id⟩, rfl, rfl,
            fun _ hcurrent => ?_⟩
          exact ⟨⟨hcurrent.timed.list, hcurrent.timed.messages⟩, hcurrent.rows,
            hcurrent.list, hcurrent.messages, hcurrent.hidden, rfl, rfl⟩
      | newChat now' measured value =>
          exact h.updates (updates_newChat now' measured value page)
      | selectConversation now' peerUid =>
          exact h.updates (updates_selectConversation now' peerUid page)
      | sendMessage now' measured value clientMsgId =>
          exact h.updates (updates_sendMessage now' measured value clientMsgId page)
      | clearMessages => exact h.updates (updates_clearMessages now page)
      | loadOlderMessages => exact h.updates (updates_loadOlderMessages now page)

end Page

end ReliableDelivery
