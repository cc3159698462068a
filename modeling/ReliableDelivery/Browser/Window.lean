import ReliableDelivery.Browser.Display

/-!
# The visible part of a conversation

The page draws the last messages of the active conversation, as many as its
`visibleMessageCount` says.  Selecting the conversation and sending make that a
page, or all messages if there are less.  A message that comes in while the list
is scrolled to its bottom changes a count of 0 only, and then a message that was
drawn goes although there is room for it.
-/

namespace ReliableDelivery

open TransitionSystem

/-! ## The messages of one conversation -/

namespace Conversation

variable {c c' : Conversation}

theorem length_getVisibleMessages (c : Conversation) :
    c.getVisibleMessages.length = c.getVisibleMessageCount := by
  have hle : c.getVisibleMessageCount ≤ c.messages.length := Nat.min_le_left ..
  rw [getVisibleMessages, List.length_drop]
  omega

theorem getVisibleMessages_suffix (c : Conversation) :
    c.getVisibleMessages <:+ c.messages :=
  List.drop_suffix ..

theorem getVisibleMessages_mono (hmessages : c'.messages = c.messages)
    (hcount : c.getVisibleMessageCount ≤ c'.getVisibleMessageCount) :
    c.getVisibleMessages <:+ c'.getVisibleMessages := by
  have hlength := c.length_getVisibleMessages
  have hlength' := c'.length_getVisibleMessages
  apply List.suffix_of_suffix_length_le c.getVisibleMessages_suffix
  · rw [← hmessages]
    exact c'.getVisibleMessages_suffix
  · omega

/-- The count is that of messages there are. -/
def Fits (c : Conversation) : Prop :=
  c.visibleMessageCount ≤ c.messages.length

/-- A page is counted, or all messages if there are less. -/
def Paged (c : Conversation) : Prop :=
  min c.messages.length MESSAGE_PAGE_SIZE ≤ c.visibleMessageCount

/-- There are messages, but less than a page of them. -/
def Short (c : Conversation) : Prop :=
  0 < c.messages.length ∧ c.messages.length < MESSAGE_PAGE_SIZE

theorem paged_iff : c.Paged ↔
    min c.messages.length MESSAGE_PAGE_SIZE ≤ c.getVisibleMessages.length := by
  rw [length_getVisibleMessages, getVisibleMessageCount, Paged]
  omega

theorem fits_reset (c : Conversation) : c.resetVisibleMessageWindow.Fits :=
  Nat.min_le_left ..

theorem paged_reset (c : Conversation) : c.resetVisibleMessageWindow.Paged :=
  Nat.le_refl _

/-- `c'` is `c` with one more message, and the count after it. -/
structure Appended (keepTopMessageVisible : Bool) (c c' : Conversation) :
    Prop where
  length : c'.messages.length = c.messages.length + 1
  count : c'.visibleMessageCount =
    if keepTopMessageVisible then
      min c'.messages.length
        (min c'.messages.length c.visibleMessageCount + 1)
    else if min c'.messages.length c.visibleMessageCount = 0 then
      min c'.messages.length MESSAGE_PAGE_SIZE
    else c.visibleMessageCount

theorem Appended.fits {keep : Bool} (h : Appended keep c c') (hfits : c.Fits) :
    c'.Fits := by
  have hcount := h.count
  have hlength := h.length
  rw [Fits] at hfits ⊢
  split at hcount
  · omega
  · split at hcount
    · omega
    · omega

/-- A message that is appended at the bottom of a short conversation. -/
theorem Appended.paged_iff {keep : Bool} (h : Appended keep c c')
    (hfits : c.Fits) (hpaged : c.Paged) :
    c'.Paged ↔ ¬(keep = false ∧ c.Short) := by
  have hcount := h.count
  have hlength := h.length
  rw [Fits] at hfits
  rw [Paged, MESSAGE_PAGE_SIZE] at hpaged ⊢
  rw [Short, MESSAGE_PAGE_SIZE]
  cases keep with
  | true =>
      rw [if_pos rfl] at hcount
      simp
      omega
  | false =>
      rw [if_neg (by decide), MESSAGE_PAGE_SIZE] at hcount
      split at hcount
      · simp
        omega
      · simp
        omega

end Conversation

/-! ## The active conversation -/

namespace AppState

variable {state state' : AppState}

/-- The drawn messages of the active conversation are its last ones, a page of them
at least unless there are less, and loading older ones keeps them. -/
def ShowsPage (state : AppState) : Prop :=
  ∀ peerUid conversation,
    state.getActiveConversation = some (peerUid, conversation) →
    conversation.getVisibleMessages <:+ conversation.messages ∧
    min conversation.messages.length MESSAGE_PAGE_SIZE ≤
      conversation.getVisibleMessages.length ∧
    ∃ conversation',
      state.loadOlderMessages.getActiveConversation =
        some (peerUid, conversation') ∧
      conversation.getVisibleMessages <:+ conversation'.getVisibleMessages

/-- Where a notice for the active conversation goes. -/
def noticePeer (state : AppState) : Option ℕ :=
  state.activePeerUid.filter fun peerUid =>
    peerUid ≠ 0 ∧ (state.conversations peerUid).isSome

/-- The conversation to which an event appends a message that came in or a notice,
and whether the list is scrolled to its bottom then.  One that is selected right
after is left out. -/
def appendsTo (engine : Ecmascript.Engine) (state : AppState) :
    AppEvent → Option (ℕ × Bool)
  | .wsMessage _ nearBottom
      (.frame (.message msgId fromUid toUid _ _ _)) =>
      if (parsePositiveInteger (.ofNat msgId)).any fun msgId =>
          msgId ∈ state.renderedMessageIds then none
      else if state.uid = some fromUid then
        some (if toUid = 0 then state.uid.getD 0 else toUid, nearBottom)
      else some (fromUid, nearBottom)
  | .wsMessage _ nearBottom (.frame (.sendAck _ clientMsgId _ _)) =>
      if (state.pendingByClientMsgId clientMsgId).isSome then none
      else state.noticePeer.map fun peerUid => (peerUid, nearBottom)
  | .wsMessage _ _ (.frame (.online _ _)) => none
  | .wsMessage _ _ (.frame .pong) => none
  | .wsMessage _ nearBottom _ =>
      state.noticePeer.map fun peerUid => (peerUid, nearBottom)
  | .newChat _ nearBottom value =>
      if (parsePositiveInteger (engine.stringToNumber value)).isSome then none
      else state.noticePeer.map fun peerUid => (peerUid, nearBottom)
  | .sendMessage _ nearBottom _ _ =>
      if state.connected && state.isSocketOpen then none
      else state.getActiveConversation.map fun active => (active.1, nearBottom)
  | _ => none

/-- The event appends to the active conversation, which is scrolled to its bottom
and has some messages, but less than a page. -/
def Narrows (engine : Ecmascript.Engine) (state : AppState) (event : AppEvent) :
    Prop :=
  ∃ peerUid conversation,
    state.getActiveConversation = some (peerUid, conversation) ∧
    state.appendsTo engine event = some (peerUid, true) ∧ conversation.Short

theorem getActiveConversation_eq_some_iff {peerUid : ℕ} {c : Conversation} :
    state.getActiveConversation = some (peerUid, c) ↔
      state.activePeerUid = some peerUid ∧
        state.conversations peerUid = some c := by
  constructor
  · intro h
    refine ⟨?_, getActiveConversation_eq h⟩
    obtain ⟨peerUid', hactive, h⟩ := Option.bind_eq_some_iff.mp h
    obtain ⟨c', -, heq⟩ := Option.map_eq_some_iff.mp h
    cases heq
    exact hactive
  · rintro ⟨hactive, hconversation⟩
    rw [getActiveConversation, hactive, Option.bind_some, hconversation]
    rfl

/-- Every count is that of messages there are. -/
def Fits (state : AppState) : Prop :=
  ∀ peerUid c, state.conversations peerUid = some c → c.Fits

/-- A page of the active conversation is counted. -/
def Paged (state : AppState) : Prop :=
  ∀ peerUid c, state.activePeerUid = some peerUid →
    state.conversations peerUid = some c → c.Paged

theorem modifyConversation_eq {peerUid : ℕ} {c : Conversation}
    (hc : state.conversations peerUid = some c)
    (f : Conversation → Conversation) :
    state.modifyConversation peerUid f =
      { state with
        conversations := Function.update state.conversations peerUid
          (some (f c)) } := by
  rw [modifyConversation, hc]
  rfl

/-- Loading older messages changes nothing but the count of the active
conversation, which grows. -/
theorem loadOlderMessages_active {peerUid : ℕ} {c : Conversation}
    (hactive : state.activePeerUid = some peerUid)
    (hc : state.conversations peerUid = some c) :
    ∃ c', state.loadOlderMessages =
        { state with
          conversations := Function.update state.conversations peerUid
            (some c') } ∧
      c'.messages = c.messages ∧
      c.getVisibleMessageCount ≤ c'.visibleMessageCount ∧
      (c.Fits → c.visibleMessageCount ≤ c'.visibleMessageCount ∧ c'.Fits) := by
  rw [loadOlderMessages, getActiveConversation_eq_some_iff.mpr ⟨hactive, hc⟩]
  dsimp only
  split
  · refine ⟨c, ?_, rfl, Nat.min_le_right .., fun hfits => ⟨le_rfl, hfits⟩⟩
    rw [← hc, Function.update_eq_self]
  · refine ⟨_, modifyConversation_eq hc _, rfl, ?_, fun hfits => ⟨?_, ?_⟩⟩
    · exact le_min (Nat.min_le_left ..) (Nat.le_add_right ..)
    · have heq : c.getVisibleMessageCount = c.visibleMessageCount :=
        Nat.min_eq_right hfits
      rw [heq]
      exact le_min hfits (Nat.le_add_right ..)
    · exact Nat.min_le_left ..

theorem showsPage_iff : state.ShowsPage ↔ state.Paged := by
  constructor
  · intro h peerUid c hactive hc
    exact Conversation.paged_iff.mpr
      (h peerUid c (getActiveConversation_eq_some_iff.mpr ⟨hactive, hc⟩)).2.1
  · intro h peerUid c hc
    obtain ⟨hactive, hconversation⟩ := getActiveConversation_eq_some_iff.mp hc
    refine ⟨c.getVisibleMessages_suffix,
      Conversation.paged_iff.mp (h peerUid c hactive hconversation), ?_⟩
    obtain ⟨c', hload, hmessages, hcount, -⟩ :=
      loadOlderMessages_active hactive hconversation
    refine ⟨c', ?_, Conversation.getVisibleMessages_mono hmessages ?_⟩
    · rw [hload]
      exact getActiveConversation_eq_some_iff.mpr
        ⟨hactive, Function.update_self ..⟩
    · refine le_min ?_ hcount
      rw [hmessages]
      exact Nat.min_le_left ..

/-! ## What the functions of the page do to the counts -/

/-- Every change of one conversation. -/
theorem Fits.update {peerUid : ℕ} {c : Conversation} (h : state.Fits)
    (hc : c.Fits)
    (hconversations : state'.conversations =
      Function.update state.conversations peerUid (some c)) : state'.Fits := by
  intro peerUid' c' hc'
  rw [hconversations, Function.update_apply] at hc'
  split at hc'
  · cases hc'
    exact hc
  · exact h peerUid' c' hc'

theorem Paged.update {peerUid : ℕ} {c : Conversation} (h : state.Paged)
    (hc : state.activePeerUid = some peerUid → c.Paged)
    (hactive : state'.activePeerUid = state.activePeerUid)
    (hconversations : state'.conversations =
      Function.update state.conversations peerUid (some c)) : state'.Paged := by
  intro peerUid' c' hpeer hc'
  rw [hactive] at hpeer
  rw [hconversations, Function.update_apply] at hc'
  split at hc'
  · next heq =>
      cases hc'
      exact hc (heq ▸ hpeer)
  · exact h peerUid' c' hpeer hc'

/-- A state in which every count is in order. -/
structure InOrder (state : AppState) : Prop where
  fits : state.Fits
  paged : state.Paged

theorem InOrder.congr (h : state.InOrder)
    (hactive : state'.activePeerUid = state.activePeerUid)
    (hconversations : state'.conversations = state.conversations) :
    state'.InOrder := by
  refine ⟨fun peerUid c hc => ?_, fun peerUid c hpeer hc => ?_⟩
  · rw [hconversations] at hc
    exact h.fits peerUid c hc
  · rw [hactive] at hpeer
    rw [hconversations] at hc
    exact h.paged peerUid c hpeer hc

theorem InOrder.of_none (hconversations : state.conversations = fun _ => none) :
    state.InOrder := by
  refine ⟨fun peerUid c hc => ?_, fun peerUid c _ hc => ?_⟩
  · rw [hconversations] at hc
    cases hc
  · rw [hconversations] at hc
    cases hc

theorem fits_new (text : Ecmascript.Text) (now : ℕ) :
    Conversation.Fits { lastMessage := text, lastAtMs := now } :=
  Nat.le_refl 0

theorem Fits.addConversation (h : state.Fits) (now peerUid : ℕ) :
    (state.addConversation now peerUid).Fits := by
  rw [AppState.addConversation]
  split
  · exact h
  · exact h.update (fits_new _ now) rfl

theorem InOrder.addConversation (h : state.InOrder) (now peerUid : ℕ) :
    (state.addConversation now peerUid).InOrder := by
  refine ⟨h.fits.addConversation now peerUid, ?_⟩
  rw [AppState.addConversation]
  split
  · exact h.paged
  · exact h.paged.update (fun _ => Nat.zero_le _) rfl rfl

/-- Selecting puts the count of the conversation in order. -/
theorem Fits.selectConversation (h : state.Fits) (now peerUid : ℕ) :
    (state.selectConversation now peerUid).InOrder := by
  obtain ⟨c, hc⟩ := exists_addConversation now peerUid state
  have hselect : (state.selectConversation now peerUid).conversations =
      Function.update (state.addConversation now peerUid).conversations peerUid
        (some ({ c with unread := 0 }).resetVisibleMessageWindow) := by
    rw [AppState.selectConversation]
    exact congrArg AppState.conversations (modifyConversation_eq hc _)
  refine ⟨(h.addConversation now peerUid).update (Conversation.fits_reset _)
    hselect, ?_⟩
  intro peerUid' c' hactive hc'
  cases hactive
  rw [hselect, Function.update_self] at hc'
  cases hc'
  exact Conversation.paged_reset _

theorem InOrder.clearMessages (h : state.InOrder) : state.clearMessages.InOrder := by
  rw [AppState.clearMessages]
  split
  · exact h
  · next peerUid c hactive =>
      rw [modifyConversation_eq (getActiveConversation_eq hactive)]
      refine ⟨h.fits.update ?_ rfl, h.paged.update (fun _ => ?_) rfl rfl⟩
      · exact Nat.le_refl 0
      · exact Nat.zero_le _

theorem InOrder.loadOlderMessages (h : state.InOrder) :
    state.loadOlderMessages.InOrder := by
  cases hactive : state.getActiveConversation with
  | none =>
      rw [AppState.loadOlderMessages, hactive]
      exact h
  | some active =>
      obtain ⟨hpeer, hc⟩ := getActiveConversation_eq_some_iff.mp hactive
      obtain ⟨c', hload, hmessages, -, hcount⟩ := loadOlderMessages_active hpeer hc
      obtain ⟨hle, hfits⟩ := hcount (h.fits _ _ hc)
      rw [hload]
      refine ⟨h.fits.update hfits rfl, h.paged.update (fun _ => ?_) rfl rfl⟩
      have hpaged := h.paged _ _ hpeer hc
      rw [Conversation.Paged] at hpaged ⊢
      rw [hmessages]
      exact hpaged.trans hle

/-! ## Appending

`target` says where a message goes, and whether the list is scrolled to its bottom. -/

/-- The message goes to the bottom of the active conversation, which is short. -/
def NarrowsAt (state : AppState) (target : Option (ℕ × Bool)) : Prop :=
  ∃ peerUid c, state.getActiveConversation = some (peerUid, c) ∧
    target = some (peerUid, true) ∧ c.Short

theorem not_narrowsAt_none : ¬state.NarrowsAt none := by
  rintro ⟨_, _, _, htarget, _⟩
  cases htarget

/-- What a function does to the counts if it appends a message to the target. -/
def Appends (target : Option (ℕ × Bool)) (state state' : AppState) : Prop :=
  state.InOrder → state'.Fits ∧ (state'.Paged ↔ ¬state.NarrowsAt target)

theorem Appends.none (h : state.InOrder → state'.InOrder) :
    Appends none state state' := by
  intro hstate
  exact ⟨(h hstate).fits, iff_of_true (h hstate).paged not_narrowsAt_none⟩

/-- A new conversation is not short. -/
theorem narrowsAt_addConversation (now peerUid : ℕ)
    (target : Option (ℕ × Bool)) :
    (state.addConversation now peerUid).NarrowsAt target ↔
      state.NarrowsAt target := by
  rw [AppState.addConversation]
  split
  · rfl
  · next hnone =>
      simp only [NarrowsAt, getActiveConversation_eq_some_iff]
      constructor
      · rintro ⟨peerUid', c, ⟨hactive, hc⟩, htarget, hshort⟩
        rw [Function.update_apply] at hc
        split at hc
        · cases hc
          exact absurd hshort.1 (Nat.lt_irrefl 0)
        · exact ⟨peerUid', c, ⟨hactive, hc⟩, htarget, hshort⟩
      · rintro ⟨peerUid', c, ⟨hactive, hc⟩, htarget, hshort⟩
        refine ⟨peerUid', c, ⟨hactive, ?_⟩, htarget, hshort⟩
        rw [Function.update_of_ne]
        · exact hc
        · rintro rfl
          rw [hnone] at hc
          cases hc

/-- The conversation with the message, before its count is looked at. -/
theorem exists_pushMessage {peerUid : ℕ} {c : Conversation}
    (hc : state.conversations peerUid = some c) (message : ShownMessage) :
    ∃ c₁ : Conversation, c₁.messages.length = c.messages.length + 1 ∧
      c₁.visibleMessageCount = c.visibleMessageCount ∧
      ∀ f, ((state.pushMessage peerUid message).modifyConversation peerUid
          f).conversations =
        Function.update state.conversations peerUid (some (f c₁)) := by
  refine ⟨{ c with
    messages := c.messages ++ [state.nextObject]
    lastMessage := message.content
    lastAtMs := message.createdAtMs }, List.length_append .., rfl, fun f => ?_⟩
  rw [pushMessage, modifyConversation_eq hc]
  dsimp only
  rw [modifyConversation_eq (Function.update_self ..), Function.update_idem]

/-- The message is put in the conversation, and the count follows. -/
theorem appends_pushMessage {peerUid : ℕ} {c : Conversation}
    (hc : state.conversations peerUid = some c) (nearBottom : Bool)
    {f : Conversation → Conversation}
    (hf : ∀ c : Conversation, (f c).messages = c.messages ∧
      (f c).visibleMessageCount = (c.updateVisibleWindowAfterAppend
        (state.activePeerUid = some peerUid &&
          !(state.activePeerUid = some peerUid && nearBottom))).visibleMessageCount)
    (message : ShownMessage) :
    Appends (some (peerUid, nearBottom)) state
      ((state.pushMessage peerUid message).modifyConversation peerUid f) := by
  obtain ⟨c₁, hlength, hcount, hpush⟩ := exists_pushMessage hc message
  obtain ⟨hmessages, hupdate⟩ := hf c₁
  have happended : Conversation.Appended
      (state.activePeerUid = some peerUid &&
        !(state.activePeerUid = some peerUid && nearBottom)) c (f c₁) := by
    refine ⟨by rw [hmessages, hlength], ?_⟩
    rw [hupdate, hmessages, Conversation.updateVisibleWindowAfterAppend,
      Conversation.getVisibleMessageCount, hcount]
    simp only [apply_ite Conversation.visibleMessageCount, hcount]
    rfl
  intro hstate
  have hfits := hstate.fits _ _ hc
  refine ⟨hstate.fits.update (happended.fits hfits) (hpush f), ?_⟩
  by_cases hactive : state.activePeerUid = some peerUid
  · have hpaged := happended.paged_iff hfits (hstate.paged _ _ hactive hc)
    simp only [hactive, decide_true, Bool.true_and, Bool.not_eq_false'] at hpaged
    constructor
    · intro h hnarrows
      obtain ⟨peerUid', c', hc', htarget, hshort⟩ := hnarrows
      cases htarget
      cases hc.symm.trans (getActiveConversation_eq hc')
      refine hpaged.mp (h _ _ hactive ?_) ⟨rfl, hshort⟩
      rw [hpush, Function.update_self]
    · intro hnarrows
      refine hstate.paged.update (fun _ => hpaged.mpr ?_) rfl (hpush f)
      rintro ⟨rfl, hshort⟩
      exact hnarrows ⟨peerUid, c,
        getActiveConversation_eq_some_iff.mpr ⟨hactive, hc⟩, rfl, hshort⟩
  · refine iff_of_true
      (hstate.paged.update (fun h => absurd h hactive) rfl (hpush f)) ?_
    rintro ⟨peerUid', c', hc', htarget, -⟩
    cases htarget
    exact hactive (getActiveConversation_eq_some_iff.mp hc').1

/-- The same for a conversation that is created if it is missing. -/
theorem appends_addConversation {peerUid : ℕ} {nearBottom : Bool}
    (now : ℕ) (h : Appends (some (peerUid, nearBottom))
      (state.addConversation now peerUid) state') :
    Appends (some (peerUid, nearBottom)) state state' := by
  intro hstate
  rw [← narrowsAt_addConversation now peerUid]
  exact h (hstate.addConversation now peerUid)

theorem appends_addSystemMessageToConversation (now : ℕ) (nearBottom : Bool)
    (peerUid : ℕ) (content : Ecmascript.Text) (state : AppState) :
    Appends (some (peerUid, nearBottom)) state
      (state.addSystemMessageToConversation now nearBottom peerUid content) := by
  obtain ⟨c, hc⟩ := exists_addConversation now peerUid state
  refine appends_addConversation now (appends_pushMessage hc nearBottom ?_ _)
  exact fun c => ⟨messages_updateVisible _ c, rfl⟩

theorem noticePeer_eq_some_iff {peerUid : ℕ} :
    state.noticePeer = some peerUid ↔
      peerUid ≠ 0 ∧ ∃ c, state.getActiveConversation = some (peerUid, c) := by
  simp only [noticePeer, Option.filter_eq_some_iff,
    getActiveConversation_eq_some_iff, decide_eq_true_eq,
    Option.isSome_iff_exists, exists_and_left]
  tauto

theorem appends_addSystemMessageToActive (now : ℕ) (nearBottom : Bool)
    (content : Ecmascript.Text) (state : AppState) :
    Appends (state.noticePeer.map fun peerUid => (peerUid, nearBottom)) state
      (state.addSystemMessageToActive now nearBottom content) := by
  cases hnotice : state.noticePeer with
  | none =>
      have hsame : state.addSystemMessageToActive now nearBottom content =
          state := by
        rw [addSystemMessageToActive]
        split
        · rfl
        · next peerUid c hactive =>
            split
            · rfl
            · next hne =>
                rw [noticePeer_eq_some_iff.mpr ⟨hne, c, hactive⟩] at hnotice
                cases hnotice
      rw [hsame]
      exact .none id
  | some peerUid =>
      obtain ⟨hne, c, hactive⟩ := noticePeer_eq_some_iff.mp hnotice
      rw [addSystemMessageToActive, hactive]
      dsimp only
      rw [if_neg hne]
      apply appends_addSystemMessageToConversation

theorem appends_newChat (engine : Ecmascript.Engine) (now : ℕ)
    (nearBottom : Bool) (value : Ecmascript.Text) (state : AppState) :
    Appends (state.appendsTo engine (.newChat now nearBottom value)) state
      (state.newChat engine now nearBottom value) := by
  rw [newChat, appendsTo]
  cases parsePositiveInteger (engine.stringToNumber value) with
  | none => apply appends_addSystemMessageToActive
  | some peerUid =>
      refine .none fun hstate => Fits.selectConversation ?_ now peerUid
      split
      · exact (appends_addSystemMessageToConversation now nearBottom peerUid _ _
          (hstate.addConversation now peerUid)).1
      · exact hstate.fits

/-- What the user sends puts the count of the conversation in order. -/
theorem appends_sendMessage (engine : Ecmascript.Engine) (now : ℕ)
    (nearBottom : Bool) (value clientMsgId : Ecmascript.Text)
    (state : AppState) :
    Appends (state.appendsTo engine
        (.sendMessage now nearBottom value clientMsgId)) state
      (state.sendMessage now nearBottom value clientMsgId) := by
  rw [sendMessage, appendsTo]
  cases hactive : state.getActiveConversation with
  | none =>
      dsimp only
      rw [Option.map_none, ite_self, addSystemMessageToActive, hactive]
      exact .none id
  | some active =>
      have hc := getActiveConversation_eq hactive
      dsimp only
      rw [← Bool.not_and]
      cases state.connected && state.isSocketOpen with
      | false => apply appends_addSystemMessageToConversation
      | true =>
          refine .none fun hstate => ?_
          rw [if_neg (by decide)]
          split
          · exact hstate
          · obtain ⟨c₁, -, -, hpush⟩ := exists_pushMessage hc
              { direction := .outgoing, clientMsgId := some clientMsgId
                fromUid := state.uid, toUid := some active.1
                content := Ecmascript.trim value, status := .sending
                createdAtMs := now }
            exact ⟨hstate.fits.update (Conversation.fits_reset c₁) (hpush _),
              hstate.paged.update (fun _ => Conversation.paged_reset c₁) rfl
                (hpush _)⟩

theorem appends_applySendAck (now : ℕ) (nearBottom ok : Bool)
    (clientMsgId : Ecmascript.Text) (msgId : ℕ) (reason : Ecmascript.Text)
    (state : AppState) :
    Appends
      (if (state.pendingByClientMsgId clientMsgId).isSome then none
        else state.noticePeer.map fun peerUid => (peerUid, nearBottom)) state
      (state.applySendAck now nearBottom ok clientMsgId msgId reason) := by
  rw [applySendAck]
  cases state.pendingByClientMsgId clientMsgId with
  | none => apply appends_addSystemMessageToActive
  | some pending => exact .none fun hstate => hstate.congr rfl rfl

/-- The counts do not depend on the rest of the state. -/
theorem Appends.congr {target : Option (ℕ × Bool)} {state₁ : AppState}
    (h : Appends target state₁ state')
    (hactive : state₁.activePeerUid = state.activePeerUid)
    (hconversations : state₁.conversations = state.conversations) :
    Appends target state state' := by
  intro hstate
  have hnarrows : state₁.NarrowsAt target ↔ state.NarrowsAt target := by
    rw [NarrowsAt, NarrowsAt, getActiveConversation, getActiveConversation,
      hactive, hconversations]
  rw [← hnarrows]
  exact h (hstate.congr hactive hconversations)

theorem appends_appendIncomingMessage (now : ℕ) (nearBottom : Bool)
    (msgId : Option ℕ) (fromUid toUid : ℕ) (content : Ecmascript.Text)
    (serverTimestampMs : ℕ) (history : Bool) (state : AppState) :
    Appends
      (some (if state.uid = some fromUid then
          if toUid = 0 then state.uid.getD 0 else toUid
        else fromUid, nearBottom)) state
      (state.appendIncomingMessage now nearBottom msgId fromUid toUid content
        serverTimestampMs history) := by
  rw [appendIncomingMessage]
  dsimp only
  generalize (if state.uid = some fromUid then
    if toUid = 0 then state.uid.getD 0 else toUid else fromUid) = peerUid
  obtain ⟨c, hc⟩ := exists_addConversation now peerUid state
  refine appends_addConversation now (appends_pushMessage hc nearBottom ?_ _)
  intro c
  split
  · exact ⟨messages_updateVisible _ c, rfl⟩
  · exact ⟨messages_updateVisible _ c, rfl⟩

theorem sendMessageAck_keeps (msgId : Option ℕ) (state : AppState) :
    ∃ sent, state.sendMessageAck msgId = { state with sent } := by
  cases msgId with
  | none => exact ⟨state.sent, rfl⟩
  | some msgId =>
      rw [sendMessageAck.eq_def]
      dsimp only
      split
      · exact ⟨_, rfl⟩
      · exact ⟨state.sent, rfl⟩

theorem appends_handleIncomingMessage (engine : Ecmascript.Engine) (now : ℕ)
    (nearBottom : Bool) (msgId fromUid toUid : ℕ) (content : Ecmascript.Text)
    (serverTimestampMs : ℕ) (history : Bool) (state : AppState) :
    Appends (state.appendsTo engine (.wsMessage now nearBottom
        (.frame (.message msgId fromUid toUid content serverTimestampMs
          history)))) state
      (state.handleIncomingMessage now nearBottom msgId fromUid toUid content
        serverTimestampMs history) := by
  rw [handleIncomingMessage, appendsTo]
  generalize parsePositiveInteger (.ofNat msgId) = parsed
  have hacked : ∃ sent,
      (if history = true then state else state.sendMessageAck parsed) =
        { state with sent } := by
    split
    · exact ⟨state.sent, rfl⟩
    · exact sendMessageAck_keeps parsed state
  obtain ⟨sent, hacked⟩ := hacked
  rw [hacked]
  dsimp only
  split
  · exact .none fun hstate => hstate.congr rfl rfl
  · rw [← apply_ite some, ← apply_ite (·, nearBottom)]
    refine Appends.congr (appends_appendIncomingMessage now nearBottom parsed
      fromUid toUid content serverTimestampMs history
      { state with
        sent, renderedMessageIds := state.renderedMessageIds ∪ parsed.toFinset })
      rfl rfl

theorem appends_handle (engine : Ecmascript.Engine) (event : AppEvent)
    (state : AppState) :
    Appends (state.appendsTo engine event) state (state.handle engine event) := by
  cases event with
  | login uid => exact .none fun _ => .of_none rfl
  | loginFailed => exact .none fun hstate => hstate.congr rfl rfl
  | logout => exact .none fun _ => .of_none rfl
  | wsOpen => exact .none fun hstate => hstate.congr rfl rfl
  | wsMessage now nearBottom message =>
      cases message with
      | unparsable => apply appends_addSystemMessageToActive
      | unknown type => apply appends_addSystemMessageToActive
      | frame frame =>
          cases frame with
          | online uid sessionId =>
              exact .none fun hstate => hstate.congr rfl rfl
          | sendAck ok clientMsgId msgId reason => apply appends_applySendAck
          | message msgId fromUid toUid content serverTimestampMs history =>
              apply appends_handleIncomingMessage
          | error reason => apply appends_addSystemMessageToActive
          | pong => exact .none id
  | wsClosing => exact .none fun hstate => hstate.congr rfl rfl
  | wsClose => exact .none fun hstate => hstate.congr rfl rfl
  | newChat now nearBottom value => apply appends_newChat
  | selectConversation now peerUid =>
      exact .none fun hstate => hstate.fits.selectConversation now peerUid
  | sendMessage now nearBottom value clientMsgId => apply appends_sendMessage
  | clearMessages => exact .none InOrder.clearMessages
  | loadOlderMessages => exact .none InOrder.loadOlderMessages

end AppState

/-! ## Runs -/

section Runs

variable {engine : Ecmascript.Engine}

/-- One event: a page is still shown, unless the event narrows the window. -/
theorem showsPage_next_iff {e e' : AppRun engine} {event : AppEvent}
    (hnext : e.Next event e') (hstate : e.state.InOrder) :
    e'.state.Fits ∧ (e'.state.ShowsPage ↔ ¬e.state.Narrows engine event) := by
  rw [AppState.showsPage_iff,
    show e'.state = e.state.handle engine event from hnext.1.2]
  exact AppState.appends_handle engine event e.state hstate

theorem inOrder_of_shows (e : AppRun engine)
    (hshows : ∀ e' : AppRun engine, e'.Later e → e'.state.ShowsPage) :
    e.state.InOrder := by
  revert hshows
  apply Execution.induct (P := fun e : AppRun engine =>
    (∀ e' : AppRun engine, e'.Later e →
      AppState.ShowsPage (Execution.state e')) → (Execution.state e).InOrder)
  · intro e _ hinit _
    rw [show e.state = {} from hinit]
    exact .of_none rfl
  · intro e e' event ih hnext hshows
    have hstate := ih fun e₁ hlater => hshows e₁ (hlater.trans hnext.later)
    exact ⟨(showsPage_next_iff hnext hstate).1,
      AppState.showsPage_iff.mp (hshows e' (.refl e'))⟩

theorem inOrder_of_none (e : AppRun engine)
    (hnone : ∀ step ∈ e.history, ¬step.1.Narrows engine step.2) :
    e.state.InOrder := by
  revert hnone
  apply Execution.induct (P := fun e : AppRun engine =>
    (∀ step ∈ Execution.history e, ¬AppState.Narrows engine step.1 step.2) →
      (Execution.state e).InOrder)
  · intro e _ hinit _
    rw [show e.state = {} from hinit]
    exact .of_none rfl
  · intro e e' event ih hnext hnone
    obtain ⟨hfits, hshows⟩ := showsPage_next_iff hnext
      (ih fun step hstep => hnone step (hnext.later.mem_history hstep))
    exact ⟨hfits, AppState.showsPage_iff.mp
      (hshows.mpr (hnone _ hnext.mem_history))⟩

end Runs

/-- In a run of the page a page of messages is shown all the time exactly if nothing
comes in for the active conversation while it is scrolled to its bottom and has
some messages, but less than a page. -/
theorem shows_page_iff (engine : Ecmascript.Engine) (e : AppRun engine) :
    (∀ e' : AppRun engine, e'.Later e → e'.state.ShowsPage) ↔
      ∀ step ∈ e.history, ¬step.1.Narrows engine step.2 := by
  constructor
  · rintro hshows ⟨state, event⟩ hstep
    obtain ⟨e₁, e₂, rfl, hnext, hlater⟩ := Execution.exists_next_of_mem hstep
    have hstate := inOrder_of_shows e₁ fun e' hbefore =>
      hshows e' ((hbefore.trans hnext.later).trans hlater)
    exact (showsPage_next_iff hnext hstate).2.mp (hshows e₂ hlater)
  · intro hnone e' hlater
    exact AppState.showsPage_iff.mpr (inOrder_of_none e' fun step hstep =>
      hnone step (hlater.mem_history hstep)).paged

/-- User 7 opens a conversation with user 2, and two messages come in while the list
is scrolled to its bottom.  Only the second one is drawn. -/
theorem page_not_shown :
    ∃ e : AppRun (engineOf 2), ¬e.state.ShowsPage := by
  obtain ⟨e, hstate, -⟩ := exists_appRun (engineOf 2)
    [.login 7, .wsOpen, .wsMessage 1000 true (.frame (.online 7 0)),
     .newChat 1000 true (Ecmascript.ascii "2"),
     .wsMessage 1000 true
       (.frame (.message 1 2 7 (Ecmascript.ascii "hi") 1000 false)),
     .wsMessage 1000 true
       (.frame (.message 2 2 7 (Ecmascript.ascii "there") 1000 false))]
  refine ⟨e, ?_⟩
  have hactive : (e.state.getActiveConversation.map fun active =>
      (active.1, active.2.messages, active.2.getVisibleMessages)) =
      some (2, [0, 1], [1]) := by
    rw [hstate]
    decide +kernel
  obtain ⟨active, hconversation, heq⟩ := Option.map_eq_some_iff.mp hactive
  simp only [Prod.mk.injEq] at heq
  intro hshows
  have hpage := (hshows active.1 active.2 hconversation).2.1
  rw [heq.2.1, heq.2.2] at hpage
  exact absurd hpage (by decide)

end ReliableDelivery
