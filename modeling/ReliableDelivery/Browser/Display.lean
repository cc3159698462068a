import ReliableDelivery.Browser.App
import ReliableDelivery.Support.Feed

/-!
# What the page shows

The message lists of the page are a feed: what comes in has its `msg_id`, and what
the user sends gets one from its `send_ack`.  The page leaves out a message whose
`msg_id` it has seen, but it gives a message that the user sent its `msg_id` without
looking.  So a message is shown twice exactly if its `send_ack` comes after a push
or a replay of it.
-/

namespace ReliableDelivery

open Ecmascript TransitionSystem Labelling

theorem parsePositiveInteger_ofNat (n : ℕ) :
    parsePositiveInteger (.ofNat n) = if n = 0 then none else some n := by
  rw [parsePositiveInteger, Number.ofNat, Number.isInteger, Number.nonpositive,
    Number.toNat]
  by_cases hn : n = 0
  · simp [hn]
  · simp [hn]

/-- The `msg_id` of a `send_ack` that is not ok. -/
def AppEvent.refusal : AppEvent → Option ℕ
  | .wsMessage _ _ (.frame (.sendAck false _ msgId _)) => some msgId
  | _ => none

namespace AppState

/-- The number of the message at a place of a conversation. -/
def entry (state : AppState) (place : ℕ × ℕ) : Option ℕ :=
  (state.conversations place.1).bind fun conversation =>
    conversation.messages[place.2]?

/-- The message lists as a feed. -/
def feed (state : AppState) : Feed (ℕ × ℕ) Text ℕ where
  entry := state.entry
  label := fun number => (state.object number).msgId
  waiting := fun clientMsgId =>
    (state.pendingByClientMsgId clientMsgId).map PendingMessage.message
  seen := state.renderedMessageIds
  next := state.nextObject

/-- The `msg_id` of the entry at a place, if it has one. -/
def msgIdAt (state : AppState) (place : ℕ × ℕ) : Option ℕ :=
  (state.entry place).bind fun number => (state.object number).msgId

/-- No two entries of the message lists have the same `msg_id`. -/
def ShownOnce (state : AppState) : Prop :=
  ∀ place place' msgId, state.msgIdAt place = some msgId →
    state.msgIdAt place' = some msgId → place = place'

/-- A `send_ack` for a message that is still listed, of which a push or a replay
is listed already. -/
def Overtaken (state : AppState) (event : AppEvent) : Prop :=
  ∃ now nearBottom ok clientMsgId msgId reason pending place place',
    event = .wsMessage now nearBottom
      (.frame (.sendAck ok clientMsgId msgId reason)) ∧
    state.pendingByClientMsgId clientMsgId = some pending ∧
    state.entry place = some pending.message ∧
    0 < msgId ∧ state.msgIdAt place' = some msgId

/-! ## The functions of the page on the feed -/

theorem messages_updateVisible (keepTopMessageVisible : Bool)
    (conversation : Conversation) :
    (conversation.updateVisibleWindowAfterAppend
      keepTopMessageVisible).messages = conversation.messages := by
  rw [Conversation.updateVisibleWindowAfterAppend]
  split
  · rfl
  · split
    · rfl
    · rfl

/-- A change of the map of conversations that leaves the message lists alone. -/
theorem feed_congr {state state' : AppState}
    (hentry : state'.entry = state.entry)
    (hpending : state'.pendingByClientMsgId = state.pendingByClientMsgId)
    (hrendered : state'.renderedMessageIds = state.renderedMessageIds)
    (hobject : state'.object = state.object)
    (hnext : state'.nextObject = state.nextObject) :
    state'.feed = state.feed := by
  rw [feed, feed, hentry, hpending, hrendered, hobject, hnext]

theorem feed_addConversation (now peerUid : ℕ) (state : AppState) :
    (state.addConversation now peerUid).feed = state.feed := by
  rw [addConversation]
  split
  · rfl
  · next hnone =>
      refine feed_congr ?_ rfl rfl rfl rfl
      funext place
      simp only [entry, Function.update_apply]
      split
      · next heq => simp [heq, hnone]
      · rfl

theorem feed_modifyConversation {f : Conversation → Conversation}
    (hf : ∀ conversation, (f conversation).messages = conversation.messages)
    (peerUid : ℕ) (state : AppState) :
    (state.modifyConversation peerUid f).feed = state.feed := by
  refine feed_congr ?_ rfl rfl rfl rfl
  funext place
  simp only [entry, modifyConversation, Function.update_apply]
  split
  · next heq =>
      rw [heq]
      cases state.conversations peerUid with
      | none => rfl
      | some conversation => exact congrArg (·[place.2]?) (hf conversation)
  · rfl

theorem getElem?_concat (numbers : List ℕ) (number i : ℕ) :
    (numbers ++ [number])[i]? =
      if i = numbers.length then some number else numbers[i]? := by
  rcases lt_trichotomy i numbers.length with hlt | rfl | hgt
  · rw [if_neg hlt.ne, List.getElem?_append_left hlt]
  · rw [if_pos rfl, List.getElem?_concat_length]
  · rw [if_neg hgt.ne', List.getElem?_eq_none hgt.le, List.getElem?_eq_none]
    rw [List.length_append]
    exact hgt

/-- Where the next message of a conversation goes. -/
def nextPlace (peerUid : ℕ) (conversation : Conversation) : ℕ × ℕ :=
  (peerUid, conversation.messages.length)

theorem entry_nextPlace {state : AppState} {peerUid : ℕ}
    {conversation : Conversation}
    (h : state.conversations peerUid = some conversation) :
    state.entry (nextPlace peerUid conversation) = none := by
  rw [entry, nextPlace, h]
  exact List.getElem?_eq_none (Nat.le_refl _)

theorem feed_pushMessage {state : AppState} {peerUid : ℕ}
    {conversation : Conversation}
    (h : state.conversations peerUid = some conversation)
    (message : ShownMessage) :
    (state.pushMessage peerUid message).feed =
      { state.feed.push (nextPlace peerUid conversation) message.msgId with
        seen := state.renderedMessageIds } := by
  rw [feed, Feed.push]
  congr 1
  · funext place
    simp only [entry, pushMessage, modifyConversation, feed,
      Function.update_apply, nextPlace, Prod.ext_iff]
    by_cases hpeer : place.1 = peerUid
    · simp only [hpeer, h, if_true, true_and, Option.map_some, Option.bind_some]
      exact getElem?_concat ..
    · simp only [hpeer, if_false, false_and]
  · funext number
    simp only [pushMessage, modifyConversation, feed, Function.update_apply]
    split
    · rfl
    · rfl

theorem exists_addConversation (now peerUid : ℕ) (state : AppState) :
    ∃ conversation,
      (state.addConversation now peerUid).conversations peerUid =
        some conversation := by
  rw [addConversation]
  split
  · next conversation h => exact ⟨conversation, h⟩
  · exact ⟨_, Function.update_self ..⟩

/-- A message without a `msg_id`, or one whose `msg_id` was remembered before. -/
theorem feed_pushMessage_of {before state : AppState} {peerUid : ℕ}
    {conversation : Conversation} {message : ShownMessage}
    (h : state.conversations peerUid = some conversation)
    (hfeed : state.feed = { before.feed with
      seen := before.renderedMessageIds ∪ message.msgId.toFinset }) :
    (state.pushMessage peerUid message).feed =
      before.feed.push (nextPlace peerUid conversation) message.msgId := by
  rw [feed_pushMessage h, hfeed,
    show state.renderedMessageIds = _ from congrArg Feed.seen hfeed]
  rfl

theorem feed_unlabelled (state : AppState) :
    state.feed = { state.feed with
      seen := state.renderedMessageIds ∪ (none : Option ℕ).toFinset } :=
  congrArg (fun seen => { state.feed with seen }) (Finset.union_empty _).symm

theorem grows_pushMessage {before state : AppState} {peerUid : ℕ}
    {message : ShownMessage}
    (hconversation : ∃ conversation,
      state.conversations peerUid = some conversation)
    (hfeed : state.feed = { before.feed with
      seen := before.renderedMessageIds ∪ message.msgId.toFinset })
    (hnew : Disjoint message.msgId.toFinset before.renderedMessageIds) :
    before.feed.Grows (state.pushMessage peerUid message).feed := by
  obtain ⟨conversation, hconversation⟩ := hconversation
  rw [feed_pushMessage_of hconversation hfeed]
  refine .push _ _ ?_ hnew
  have hplace := entry_nextPlace hconversation
  rw [show state.entry = before.entry from congrArg Feed.entry hfeed] at hplace
  exact hplace

theorem grows_addSystemMessageToConversation (now : ℕ) (nearBottom : Bool)
    (peerUid : ℕ) (content : Text) (state : AppState) :
    state.feed.Grows (state.addSystemMessageToConversation now nearBottom peerUid
      content).feed := by
  rw [addSystemMessageToConversation,
    feed_modifyConversation (messages_updateVisible _)]
  apply grows_pushMessage (exists_addConversation now peerUid state)
  · rw [feed_addConversation]
    exact feed_unlabelled state
  · exact Finset.disjoint_empty_left _

theorem grows_addSystemMessageToActive (now : ℕ) (nearBottom : Bool)
    (content : Text) (state : AppState) :
    state.feed.Grows
      (state.addSystemMessageToActive now nearBottom content).feed := by
  rw [addSystemMessageToActive]
  split
  · exact .same
  · split
    · exact .same
    · apply grows_addSystemMessageToConversation

theorem feed_selectConversation (now peerUid : ℕ) (state : AppState) :
    (state.selectConversation now peerUid).feed = state.feed := by
  rw [selectConversation, feed_modifyConversation]
  · exact feed_addConversation now peerUid state
  · exact fun _ => rfl

theorem grows_newChat (engine : Engine) (now : ℕ) (nearBottom : Bool)
    (value : Text) (state : AppState) :
    state.feed.Grows (state.newChat engine now nearBottom value).feed := by
  rw [newChat]
  split
  · apply grows_addSystemMessageToActive
  · next peerUid _ =>
      rw [feed_selectConversation]
      split
      · rw [← feed_addConversation now peerUid state]
        apply grows_addSystemMessageToConversation
      · exact .same

theorem getActiveConversation_eq {state : AppState} {peerUid : ℕ}
    {conversation : Conversation}
    (h : state.getActiveConversation = some (peerUid, conversation)) :
    state.conversations peerUid = some conversation := by
  obtain ⟨peerUid', -, h⟩ := Option.bind_eq_some_iff.mp h
  obtain ⟨conversation', hconversation, heq⟩ := Option.map_eq_some_iff.mp h
  cases heq
  exact hconversation

theorem grows_clearMessages (state : AppState) :
    state.feed.Grows state.clearMessages.feed := by
  rw [clearMessages]
  split
  · exact .same
  · next peerUid _ _ =>
      have hclear : (state.modifyConversation peerUid fun conversation =>
          { conversation with
            messages := [], unread := 0, visibleMessageCount := 0 }).feed =
          state.feed.clear fun place => place.1 ≠ peerUid := by
        rw [feed, Feed.clear]
        congr 1
        funext place
        simp only [entry, modifyConversation, Function.update_apply, feed]
        by_cases hpeer : place.1 = peerUid
        · simp [hpeer]
        · simp [hpeer]
      rw [hclear]
      exact .clear _

theorem feed_loadOlderMessages (state : AppState) :
    state.loadOlderMessages.feed = state.feed := by
  rw [loadOlderMessages]
  split
  · rfl
  · split
    · rfl
    · rw [feed_modifyConversation]
      exact fun _ => rfl

theorem feed_sendFrame (frame : PageFrame) (state : AppState) :
    (state.sendFrame frame).feed = state.feed :=
  rfl

theorem feed_pending {before after : AppState} {place : ℕ × ℕ}
    (hfeed : after.feed = before.feed.push place none) (clientMsgId : Text)
    (peerUid : ℕ) :
    feed { after with
      pendingByClientMsgId := Function.update before.pendingByClientMsgId
        clientMsgId (some { peerUid, message := before.nextObject }) } =
      before.feed.post place clientMsgId := by
  rw [Feed.post, ← hfeed]
  rw [feed]
  congr 1
  funext key
  simp only [Function.update_apply, apply_ite (Option.map PendingMessage.message)]
  rfl

/-- What the user sends waits for its `send_ack`. -/
theorem grows_sendMessage (now : ℕ) (nearBottom : Bool)
    (value clientMsgId : Text) (state : AppState) :
    state.feed.Grows
      (state.sendMessage now nearBottom value clientMsgId).feed := by
  rw [sendMessage]
  split
  · apply grows_addSystemMessageToActive
  · split
    · apply grows_addSystemMessageToConversation
    · split
      · exact .same
      · next peerUid conversation hactive _ _ =>
          have hconversation := getActiveConversation_eq hactive
          have hwindow := feed_modifyConversation
            (f := Conversation.resetVisibleMessageWindow) (fun _ => rfl) peerUid
            (state.pushMessage peerUid
              { direction := .outgoing, clientMsgId := some clientMsgId
                fromUid := state.uid, toUid := some peerUid
                content := trim value, status := .sending, createdAtMs := now })
          rw [feed_pushMessage_of hconversation state.feed_unlabelled] at hwindow
          rw [feed_sendFrame, feed_pending hwindow]
          exact .post _ clientMsgId (entry_nextPlace hconversation)

theorem feed_sendMessageAck (msgId : Option ℕ) (state : AppState) :
    (state.sendMessageAck msgId).feed = state.feed := by
  cases msgId with
  | none => rfl
  | some msgId =>
      rw [sendMessageAck.eq_def]
      dsimp only
      split
      · rfl
      · rfl

theorem grows_handleIncomingMessage (now : ℕ) (nearBottom : Bool)
    (msgId fromUid toUid : ℕ) (content : Text) (serverTimestampMs : ℕ)
    (history : Bool) (state : AppState) :
    state.feed.Grows (state.handleIncomingMessage now nearBottom msgId fromUid
      toUid content serverTimestampMs history).feed := by
  rw [handleIncomingMessage]
  generalize hparsed : parsePositiveInteger (.ofNat msgId) = parsed
  have hfeed : ∀ state' : AppState, state' =
      (if history = true then state else state.sendMessageAck parsed) →
      state'.feed = state.feed := by
    rintro state' rfl
    split
    · rfl
    · apply feed_sendMessageAck
  generalize hstate : (if history = true then state else
    state.sendMessageAck parsed) = state'
  rw [← hfeed state' hstate.symm]
  split
  · exact .same
  · next hunseen =>
      rw [appendIncomingMessage, feed_modifyConversation]
      · apply grows_pushMessage (exists_addConversation ..)
        · rw [feed_addConversation]
          rfl
        · cases parsed with
          | none => exact Finset.disjoint_empty_left _
          | some m =>
              rw [Option.any_some, decide_eq_true_eq] at hunseen
              exact Finset.disjoint_singleton_left.mpr hunseen
      · intro conversation
        simp only [apply_ite Conversation.messages, messages_updateVisible,
          ite_self]

theorem feed_applySendAck {state : AppState} {clientMsgId : Text}
    {pending : PendingMessage}
    (h : state.pendingByClientMsgId clientMsgId = some pending)
    (now : ℕ) (nearBottom : Bool) {ok : Bool} {msgId : ℕ}
    (hrefused : ok = false → msgId = 0) (reason : Text) :
    (state.applySendAck now nearBottom ok clientMsgId msgId reason).feed =
      state.feed.settle clientMsgId pending.message
        (parsePositiveInteger (.ofNat msgId)) := by
  rw [applySendAck, h, feed, Feed.settle]
  dsimp only
  congr 1
  · funext number
    simp only [feed, Function.update_apply, apply_ite ShownMessage.msgId]
  · funext key
    simp only [feed, Function.update_apply, apply_ite (Option.map _)]
    rfl
  · cases ok with
    | true => rfl
    | false =>
        rw [hrefused rfl, parsePositiveInteger_ofNat, if_pos rfl]
        exact (Finset.union_empty _).symm

/-- Everything but a `send_ack` lets the feed grow. -/
theorem grows_handleServerMessage (now : ℕ) (nearBottom : Bool)
    {message : ServerMessage}
    (hmessage : ∀ ok clientMsgId msgId reason,
      message ≠ .frame (.sendAck ok clientMsgId msgId reason))
    (state : AppState) :
    state.feed.Grows
      (state.handleServerMessage now nearBottom message).feed := by
  rw [handleServerMessage.eq_def]
  split
  · apply grows_addSystemMessageToActive
  · exact .same
  · exact absurd rfl (hmessage _ _ _ _)
  · apply grows_handleIncomingMessage
  · apply grows_addSystemMessageToActive
  · exact .same
  · apply grows_addSystemMessageToActive

theorem grows_handle (engine : Engine) {event : AppEvent}
    (hevent : ∀ now nearBottom ok clientMsgId msgId reason,
      event ≠ .wsMessage now nearBottom
        (.frame (.sendAck ok clientMsgId msgId reason)))
    (state : AppState) : state.feed.Grows (state.handle engine event).feed := by
  rw [handle.eq_def]
  split
  · exact .reset
  · exact .same
  · exact .reset
  · exact .same
  · apply grows_handleServerMessage
    rintro ok clientMsgId msgId reason rfl
    exact hevent _ _ _ _ _ _ rfl
  · exact .same
  · exact .same
  · apply grows_newChat
  · rw [feed_selectConversation]
    exact .same
  · apply grows_sendMessage
  · apply grows_clearMessages
  · rw [feed_loadOlderMessages]
    exact .same

/-- An event lets the feed grow, or it settles a message. -/
theorem handle_cases (engine : Engine) (state : AppState) {event : AppEvent}
    (hrefused : ∀ msgId ∈ event.refusal, msgId = 0) :
    (state.feed.Grows (state.handle engine event).feed ∧
        ¬state.Overtaken event) ∨
      ∃ clientMsgId number msgId,
        state.feed.waiting clientMsgId = some number ∧
        (state.handle engine event).feed =
          state.feed.settle clientMsgId number msgId ∧
        (state.Overtaken event ↔ state.feed.Overtaken number msgId) := by
  by_cases hevent : ∃ now nearBottom ok clientMsgId msgId reason,
      event = .wsMessage now nearBottom
        (.frame (.sendAck ok clientMsgId msgId reason))
  · obtain ⟨now, nearBottom, ok, clientMsgId, msgId, reason, rfl⟩ := hevent
    cases hpending : state.pendingByClientMsgId clientMsgId with
    | none =>
        refine .inl ⟨?_, ?_⟩
        · simp only [handle, handleServerMessage, applySendAck, hpending]
          apply grows_addSystemMessageToActive
        · rintro ⟨_, _, _, _, _, _, pending, _, _, heq, hpending', -⟩
          cases heq
          rw [hpending] at hpending'
          cases hpending'
    | some pending =>
        refine .inr ⟨clientMsgId, pending.message,
          parsePositiveInteger (.ofNat msgId), ?_, ?_, ?_⟩
        · exact congrArg (Option.map PendingMessage.message) hpending
        · apply feed_applySendAck hpending
          rintro rfl
          exact hrefused msgId rfl
        · rw [parsePositiveInteger_ofNat]
          constructor
          · rintro ⟨_, _, _, _, _, _, _, place, place', heq, hpending', hentry,
              hpos, hlisted⟩
            cases heq
            cases hpending.symm.trans hpending'
            exact ⟨place, place', msgId, hentry, if_neg hpos.ne', hlisted⟩
          · rintro ⟨place, place', x, hentry, hx, hlisted⟩
            split at hx
            · cases hx
            · next hne =>
                cases hx
                exact ⟨now, nearBottom, ok, clientMsgId, msgId, reason, pending,
                  place, place', rfl, hpending, hentry, Nat.pos_of_ne_zero hne,
                  hlisted⟩
  · have hother : ∀ now nearBottom ok clientMsgId msgId reason,
        event ≠ .wsMessage now nearBottom
          (.frame (.sendAck ok clientMsgId msgId reason)) :=
      fun now nearBottom ok clientMsgId msgId reason heq =>
        hevent ⟨now, nearBottom, ok, clientMsgId, msgId, reason, heq⟩
    refine .inl ⟨grows_handle engine hother state, ?_⟩
    rintro ⟨_, _, _, _, _, _, _, _, _, heq, -⟩
    exact hother _ _ _ _ _ _ heq

end AppState

/-! ## Runs -/

section Runs

variable {engine : Engine}

/-- The server and the gateway give no refusal a `msg_id`. -/
def RefusalsUnnumbered (e : AppRun engine) : Prop :=
  ∀ step ∈ e.history, ∀ msgId ∈ step.2.refusal, msgId = 0

theorem RefusalsUnnumbered.before {e e' : AppRun engine}
    (h : RefusalsUnnumbered e') (hlater : e.Later e') : RefusalsUnnumbered e :=
  fun step hstep => h step (hlater.mem_history hstep)

theorem sound_feed (e : AppRun engine) (hrefusals : RefusalsUnnumbered e) :
    e.state.feed.Sound := by
  revert hrefusals
  apply Execution.induct (P := fun e : AppRun engine =>
    RefusalsUnnumbered e → (Execution.state e).feed.Sound)
  · intro e _ hinit _
    rw [show e.state = {} from hinit]
    exact Feed.sound_empty _ _
  · intro e e' event ih hnext hrefusals
    have hsound := ih (hrefusals.before hnext.later)
    rw [show e'.state = e.state.handle engine event from hnext.1.2]
    rcases AppState.handle_cases engine e.state
        (hrefusals _ hnext.mem_history) with
      ⟨hgrows, -⟩ | ⟨clientMsgId, number, msgId, hwaiting, hsettle, -⟩
    · exact hsound.grows hgrows
    · rw [hsettle]
      exact hsound.settle hwaiting msgId

/-- One event: every message is still shown once, unless the event overtakes. -/
theorem once_next_iff {e e' : AppRun engine} {event : AppEvent}
    (hrefusals : RefusalsUnnumbered e') (hnext : e.Next event e')
    (honce : e.state.ShownOnce) :
    e'.state.ShownOnce ↔ ¬e.state.Overtaken event := by
  have hsound := sound_feed e (hrefusals.before hnext.later)
  rw [show e'.state = e.state.handle engine event from hnext.1.2]
  rcases AppState.handle_cases engine e.state (hrefusals _ hnext.mem_history) with
    ⟨hgrows, hnot⟩ | ⟨clientMsgId, number, msgId, hwaiting, hsettle, hiff⟩
  · exact iff_of_true (Feed.Once.grows (f := e.state.feed) honce hsound hgrows)
      hnot
  · rw [hiff, ← hsound.once_settle_iff honce hwaiting msgId, ← hsettle]
    rfl

theorem once_of_none (e : AppRun engine) (hrefusals : RefusalsUnnumbered e)
    (hnone : ∀ step ∈ e.history, ¬step.1.Overtaken step.2) :
    e.state.ShownOnce := by
  revert hrefusals hnone
  apply Execution.induct (P := fun e : AppRun engine =>
    RefusalsUnnumbered e →
      (∀ step ∈ Execution.history e, ¬AppState.Overtaken step.1 step.2) →
      (Execution.state e).ShownOnce)
  · intro e _ hinit _ _
    rw [show e.state = {} from hinit]
    exact oneToOne_none
  · intro e e' event ih hnext hrefusals hnone
    have honce := ih (hrefusals.before hnext.later) fun step hstep =>
      hnone step (hnext.later.mem_history hstep)
    exact (once_next_iff hrefusals hnext honce).mpr (hnone _ hnext.mem_history)

end Runs

/-- In a run of the page every message is shown once all the time exactly if no
`send_ack` comes for a listed message of which a push or a replay is listed. -/
theorem shown_once_iff (engine : Engine) (e : AppRun engine)
    (hrefusals : RefusalsUnnumbered e) :
    (∀ e' : AppRun engine, e'.Later e → e'.state.ShownOnce) ↔
      ∀ step ∈ e.history, ¬step.1.Overtaken step.2 := by
  constructor
  · rintro honce ⟨state, event⟩ hstep
    obtain ⟨e₁, e₂, rfl, hnext, hlater⟩ := Execution.exists_next_of_mem hstep
    exact (once_next_iff (hrefusals.before hlater) hnext
      (honce e₁ (hnext.later.trans hlater))).mp (honce e₂ hlater)
  · intro hnone e' hlater
    exact once_of_none e' (hrefusals.before hlater) fun step hstep =>
      hnone step (hlater.mem_history hstep)

/-! ## A concrete run -/

def appDriver (engine : Engine) : Driver (app engine) AppEvent where
  advance state event :=
    if state.enabled event = true then some (event, state.handle engine event)
    else none
  sound state event event' state' h := by
    split at h
    · next henabled =>
        cases h
        exact ⟨henabled, rfl⟩
    · cases h

/-- The run along a list of events; impossible ones are skipped. -/
theorem exists_appRun (engine : Engine) (events : List AppEvent) :
    ∃ e : AppRun engine, e.state = (appDriver engine).follow {} events ∧
      e.history = ((appDriver engine).trace {} events).reverse := by
  obtain ⟨e, -, hstate, hhistory⟩ := (appDriver engine).exists_follow events
    ⟨[], {}, .init rfl⟩
  rw [List.append_nil] at hhistory
  exact ⟨e, hstate, hhistory⟩

/-- Reads every text as the number of a user. -/
def engineOf (uid : ℕ) : Engine where
  stringToNumber _ := .ofNat uid
  numberToString _ := []

/-- User 7 is online and sends a message to another user. -/
def sampleSending : List AppEvent :=
  [.login 7, .wsOpen, .wsMessage 1000 true (.frame (.online 7 0)),
   .newChat 1000 true (ascii "peer"),
   .sendMessage 1000 true (ascii "hi") (ascii "c")]

/-- User 7 sends message 5 to user 2. -/
theorem shown_once_iff_sampleSending :
    ∃ e : AppRun (engineOf 2), e.state.msgIdAt (2, 0) = some 5 ∧
      ((∀ e' : AppRun (engineOf 2), e'.Later e → e'.state.ShownOnce) ↔
        ∀ step ∈ e.history, ¬step.1.Overtaken step.2) := by
  obtain ⟨e, hstate, hhistory⟩ := exists_appRun (engineOf 2) (sampleSending ++
    [.wsMessage 1000 true (.frame (.sendAck true (ascii "c") 5 []))])
  have hrefusals : RefusalsUnnumbered e := by
    rw [RefusalsUnnumbered, hhistory]
    decide +kernel
  refine ⟨e, ?_, shown_once_iff (engineOf 2) e hrefusals⟩
  rw [hstate]
  decide +kernel

end ReliableDelivery
