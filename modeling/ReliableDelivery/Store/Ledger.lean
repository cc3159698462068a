import ReliableDelivery.Store.Scripts

/-!
# The message ledger

What the message store is for, without keys, text or indexes: a numbered
collection of messages.  Ids are handed out in order, a sender's client id names
at most one message, and the origin of a message never changes.  The remaining
fields move with the requests.  `Ledger.after` is the effect of each request.
-/

namespace ReliableDelivery

open Decimal Redis

/-- A stored message. -/
structure Message where
  fromUid : UInt64
  toUid : UInt64
  content : Bytes
  clientMsgId : Bytes
  createdAtMs : UInt64
  status : MessageStatus
  deliveredAtMs : UInt64
  ackedAtMs : UInt64
  retryCount : ℕ
  deriving DecidableEq

namespace Message

/-- The pair that makes creation idempotent. -/
def clientKey (m : Message) : UInt64 × Bytes :=
  (m.fromUid, m.clientMsgId)

/-- The fields fixed at creation. -/
def origin (m : Message) : UInt64 × UInt64 × Bytes × Bytes × UInt64 :=
  (m.fromUid, m.toUid, m.content, m.clientMsgId, m.createdAtMs)

/-- A message as it is first written. -/
def new (fromUid toUid : UInt64) (content clientMsgId : Bytes)
    (createdAtMs : UInt64) : Message where
  fromUid := fromUid
  toUid := toUid
  content := content
  clientMsgId := clientMsgId
  createdAtMs := createdAtMs
  status := .pending
  deliveredAtMs := 0
  ackedAtMs := 0
  retryCount := 0

/-- The record that readers of the store are given. -/
def record (m : Message) (msgId : UInt64) : MessageRecord where
  msgId := msgId
  fromUid := m.fromUid
  toUid := m.toUid
  content := m.content
  clientMsgId := m.clientMsgId
  status := m.status
  createdAtMs := m.createdAtMs
  deliveredAtMs := m.deliveredAtMs
  ackedAtMs := m.ackedAtMs
  retryCount := toInt32 m.retryCount

theorem clientKey_eq_of_origin_eq {m m' : Message} (h : m.origin = m'.origin) :
    m.clientKey = m'.clientKey := by
  simp only [origin, Prod.mk.injEq] at h
  simp only [clientKey, Prod.mk.injEq]
  exact ⟨h.1, h.2.2.2.1⟩

end Message

/-- A change of a message that keeps its origin and never lowers its retry
count, which stays a Redis integer. -/
structure Change where
  apply : Message → Message
  origin : ∀ m, (apply m).origin = m.origin
  retryMono : ∀ m, m.retryCount ≤ (apply m).retryCount
  retryFits : ∀ m, m.retryCount < 2 ^ 63 → (apply m).retryCount < 2 ^ 63

namespace Change

def deliver (now : UInt64) : Change where
  apply m := { m with status := .delivered, deliveredAtMs := now }
  origin _ := rfl
  retryMono _ := le_refl _
  retryFits _ h := h

def postpone : Change where
  apply m := { m with status := .pending }
  origin _ := rfl
  retryMono _ := le_refl _
  retryFits _ h := h

def fail : Change where
  apply m := { m with status := .failed }
  origin _ := rfl
  retryMono _ := le_refl _
  retryFits _ h := h

/-- An acknowledgement counts only from the receiver. -/
def acknowledge (ackUid now : UInt64) : Change where
  apply m :=
    if m.toUid = ackUid then { m with status := .acked, ackedAtMs := now }
    else m
  origin m := by
    by_cases h : m.toUid = ackUid <;> simp [h, Message.origin]
  retryMono m := by
    by_cases h : m.toUid = ackUid <;> simp [h]
  retryFits m hm := by
    by_cases h : m.toUid = ackUid <;> simpa [h] using hm

/-- One more retry, unless the counter is at the largest Redis integer. -/
def retry : Change where
  apply m :=
    if m.retryCount + 1 < 2 ^ 63 then
      { m with retryCount := m.retryCount + 1 }
    else m
  origin m := by
    by_cases h : m.retryCount + 1 < 2 ^ 63 <;> simp only [h, if_true, if_false]
    rfl
  retryMono m := by
    by_cases h : m.retryCount + 1 < 2 ^ 63 <;> simp only [h, if_true, if_false]
    · exact Nat.le_succ _
    · exact le_refl _
  retryFits m hm := by
    by_cases h : m.retryCount + 1 < 2 ^ 63
    · simp only [h, if_true]
    · simpa only [h, if_false] using hm

end Change

/-- The change a state script makes. -/
def MsgStateScript.change (now : UInt64) : MsgStateScript → Change
  | .markDelivered => .deliver now
  | .markPending => .postpone
  | .markFailed => .fail

/-- Messages numbered from one in the order of their creation. -/
structure Ledger where
  count : ℕ
  find : UInt64 → Option Message
  numbered : ∀ id, (find id).isSome ↔ 0 < id.toNat ∧ id.toNat ≤ count
  distinct : ∀ id id' m m', find id = some m → find id' = some m' →
    m.clientKey = m'.clientKey → id = id'
  countFits : count < 2 ^ 63
  retryFits : ∀ id m, find id = some m → m.retryCount < 2 ^ 63

namespace Ledger

def empty : Ledger where
  count := 0
  find _ := none
  numbered id := by
    simp only [Option.isSome_none, Bool.false_eq_true, false_iff]
    omega
  distinct _ _ _ _ h := by cases h
  countFits := by decide
  retryFits _ _ h := by cases h

/-- Some message already carries this sender and client id. -/
def Taken (L : Ledger) (key : UInt64 × Bytes) : Prop :=
  ∃ id m, L.find id = some m ∧ m.clientKey = key

/-- The id the next message gets. -/
def nextId (L : Ledger) : UInt64 :=
  UInt64.ofNat (L.count + 1)

theorem nextId_toNat (L : Ledger) : L.nextId.toNat = L.count + 1 := by
  have h := L.countFits
  rw [nextId, UInt64.toNat_ofNat']
  exact Nat.mod_eq_of_lt (by omega)

theorem find_nextId (L : Ledger) : L.find L.nextId = none := by
  cases h : L.find L.nextId with
  | none => rfl
  | some m =>
      have hsome := (L.numbered L.nextId).mp (by rw [h]; rfl)
      rw [L.nextId_toNat] at hsome
      omega

theorem find_ne_nextId {L : Ledger} {id : UInt64} {m : Message}
    (h : L.find id = some m) : id ≠ L.nextId := by
  rintro rfl
  rw [L.find_nextId] at h
  cases h

/-- Add a message under the next id. -/
def append (L : Ledger) (m : Message) (hfree : ¬L.Taken m.clientKey)
    (hroom : L.count + 1 < 2 ^ 63) (hretry : m.retryCount < 2 ^ 63) :
    Ledger where
  count := L.count + 1
  find := Function.update L.find L.nextId (some m)
  numbered id := by
    by_cases h : id = L.nextId
    · subst h
      rw [Function.update_self, L.nextId_toNat]
      simp
    · have hne : id.toNat ≠ L.count + 1 := by
        rw [← L.nextId_toNat]
        exact fun heq => h (UInt64.toNat_inj.mp heq)
      rw [Function.update_of_ne h, L.numbered id]
      omega
  distinct id id' m₁ m₂ h₁ h₂ hkey := by
    rw [Function.update_apply] at h₁ h₂
    by_cases hid : id = L.nextId
    · by_cases hid' : id' = L.nextId
      · rw [hid, hid']
      · rw [if_pos hid, Option.some.injEq] at h₁
        rw [if_neg hid'] at h₂
        subst h₁
        exact absurd ⟨id', m₂, h₂, hkey.symm⟩ hfree
    · rw [if_neg hid] at h₁
      by_cases hid' : id' = L.nextId
      · rw [if_pos hid', Option.some.injEq] at h₂
        subst h₂
        exact absurd ⟨id, m₁, h₁, hkey⟩ hfree
      · rw [if_neg hid'] at h₂
        exact L.distinct id id' m₁ m₂ h₁ h₂ hkey
  countFits := hroom
  retryFits id m' h := by
    rw [Function.update_apply] at h
    by_cases hid : id = L.nextId
    · rw [if_pos hid, Option.some.injEq] at h
      rw [← h]
      exact hretry
    · rw [if_neg hid] at h
      exact L.retryFits id m' h

/-- Change the message with the given id, if there is one. -/
def modify (L : Ledger) (id : UInt64) (change : Change) : Ledger where
  count := L.count
  find := Function.update L.find id ((L.find id).map change.apply)
  numbered id' := by
    rw [Function.update_apply]
    split
    · next h => rw [Option.isSome_map, h, L.numbered id]
    · exact L.numbered id'
  distinct id₁ id₂ m₁ m₂ h₁ h₂ hkey := by
    have hold : ∀ i m,
        Function.update L.find id ((L.find id).map change.apply) i = some m →
          ∃ m', L.find i = some m' ∧ m'.clientKey = m.clientKey := by
      intro i m hm
      by_cases hi : i = id
      · subst hi
        rw [Function.update_self, Option.map_eq_some_iff] at hm
        obtain ⟨m', hm', rfl⟩ := hm
        exact ⟨m', hm',
          (Message.clientKey_eq_of_origin_eq (change.origin m')).symm⟩
      · rw [Function.update_of_ne hi] at hm
        exact ⟨m, hm, rfl⟩
    obtain ⟨m₁', hm₁, hk₁⟩ := hold id₁ m₁ h₁
    obtain ⟨m₂', hm₂, hk₂⟩ := hold id₂ m₂ h₂
    exact L.distinct id₁ id₂ m₁' m₂' hm₁ hm₂ (by rw [hk₁, hkey, hk₂])
  countFits := L.countFits
  retryFits i m h := by
    by_cases hi : i = id
    · subst hi
      rw [Function.update_self, Option.map_eq_some_iff] at h
      obtain ⟨m', hm', rfl⟩ := h
      exact change.retryFits m' (L.retryFits i m' hm')
    · rw [Function.update_of_ne hi] at h
      exact L.retryFits i m h

theorem find_modify (L : Ledger) (id id' : UInt64) (change : Change) :
    (L.modify id change).find id' =
      if id' = id then (L.find id).map change.apply else L.find id' := by
  simp only [modify, Function.update_apply]

/-- A change that leaves the message as it is leaves the ledger as it is. -/
theorem modify_same {L : Ledger} {id : UInt64} {change : Change}
    (h : ∀ m, L.find id = some m → change.apply m = m) :
    L.modify id change = L := by
  have hfind : (L.modify id change).find = L.find := by
    funext id'
    rw [find_modify]
    split
    · next heq =>
        rw [heq]
        cases hm : L.find id with
        | none => rfl
        | some m => rw [Option.map_some, h m hm]
    · rfl
  cases L
  simp only [modify, mk.injEq, true_and] at hfind ⊢
  exact hfind

theorem modify_absent {L : Ledger} {id : UInt64} (h : L.find id = none)
    (change : Change) : L.modify id change = L := by
  apply modify_same
  intro m hm
  rw [h] at hm
  cases hm

open Classical in
/-- The ledger after a request. -/
noncomputable def after (L : Ledger) : RedisRequest → Ledger
  | .evalCreateMessage fromUid toUid content clientMsgId createdAtMs =>
      if h : ¬L.Taken (fromUid, clientMsgId) ∧ L.count + 1 < 2 ^ 63 then
        L.append (.new fromUid toUid content clientMsgId createdAtMs) h.1 h.2
          (Nat.two_pow_pos 63)
      else L
  | .evalMsgStateScript script msgId timestampMs =>
      L.modify msgId (script.change timestampMs)
  | .evalMarkAckedScript msgId ackUid timestampMs =>
      L.modify msgId (.acknowledge ackUid timestampMs)
  | .evalIncrementRetryScript msgId => L.modify msgId .retry
  | .hmgetRecord _ => L
  | .zrangePending _ => L
  | .zrevrangeRecent _ _ => L
  | .zrangebyscoreTimeout _ => L

/-- A later ledger still has every message, with its origin, and with a retry
count that is at least as large. -/
def Extends (L L' : Ledger) : Prop :=
  L.count ≤ L'.count ∧
    ∀ id m, L.find id = some m →
      ∃ m', L'.find id = some m' ∧ m'.origin = m.origin ∧
        m.retryCount ≤ m'.retryCount

theorem Extends.refl (L : Ledger) : L.Extends L :=
  ⟨le_refl _, fun _ m h => ⟨m, h, rfl, le_refl _⟩⟩

theorem Extends.trans {L₁ L₂ L₃ : Ledger}
    (h₁ : L₁.Extends L₂) (h₂ : L₂.Extends L₃) : L₁.Extends L₃ := by
  refine ⟨le_trans h₁.1 h₂.1, ?_⟩
  intro id m hm
  obtain ⟨m', hm', horigin, hretry⟩ := h₁.2 id m hm
  obtain ⟨m'', hm'', horigin', hretry'⟩ := h₂.2 id m' hm'
  exact ⟨m'', hm'', horigin'.trans horigin, le_trans hretry hretry'⟩

theorem extends_modify (L : Ledger) (id : UInt64) (change : Change) :
    L.Extends (L.modify id change) := by
  refine ⟨le_refl _, ?_⟩
  intro id' m hm
  by_cases h : id' = id
  · subst h
    refine ⟨change.apply m, ?_, change.origin m, change.retryMono m⟩
    rw [find_modify, if_pos rfl, hm]
    rfl
  · refine ⟨m, ?_, rfl, le_refl _⟩
    rw [find_modify, if_neg h, hm]

theorem find_append (L : Ledger) (m : Message) (hfree : ¬L.Taken m.clientKey)
    (hroom : L.count + 1 < 2 ^ 63) (hretry : m.retryCount < 2 ^ 63)
    (id : UInt64) :
    (L.append m hfree hroom hretry).find id =
      if id = L.nextId then some m else L.find id := by
  simp only [append, Function.update_apply]

theorem extends_append (L : Ledger) (m : Message)
    (hfree : ¬L.Taken m.clientKey) (hroom : L.count + 1 < 2 ^ 63)
    (hretry : m.retryCount < 2 ^ 63) :
    L.Extends (L.append m hfree hroom hretry) := by
  refine ⟨Nat.le_succ _, ?_⟩
  intro id m' hm'
  refine ⟨m', ?_, rfl, le_refl _⟩
  rw [find_append, if_neg (find_ne_nextId hm'), hm']

/-- No request loses a message or changes where it came from. -/
theorem extends_after (L : Ledger) (request : RedisRequest) :
    L.Extends (L.after request) := by
  cases request with
  | evalCreateMessage fromUid toUid content clientMsgId createdAtMs =>
      simp only [after]
      split
      · exact extends_append L _ _ _ _
      · exact Extends.refl L
  | evalMsgStateScript script msgId timestampMs =>
      exact extends_modify L msgId _
  | evalMarkAckedScript msgId ackUid timestampMs =>
      exact extends_modify L msgId _
  | evalIncrementRetryScript msgId => exact extends_modify L msgId _
  | hmgetRecord msgId => exact Extends.refl L
  | zrangePending uid => exact Extends.refl L
  | zrevrangeRecent uid stop => exact Extends.refl L
  | zrangebyscoreTimeout maxScore => exact Extends.refl L

/-! ## The effect of a creation -/

section Create

variable {L : Ledger} {fromUid toUid now : UInt64} {content clientMsgId : Bytes}

theorem after_create_taken (h : L.Taken (fromUid, clientMsgId)) :
    L.after (.evalCreateMessage fromUid toUid content clientMsgId now) = L := by
  rw [after, dif_neg fun hnew => hnew.1 h]

theorem after_create_full (h : ¬L.count + 1 < 2 ^ 63) :
    L.after (.evalCreateMessage fromUid toUid content clientMsgId now) = L := by
  rw [after, dif_neg fun hnew => h hnew.2]

theorem after_create_new (hfree : ¬L.Taken (fromUid, clientMsgId))
    (hroom : L.count + 1 < 2 ^ 63) :
    L.after (.evalCreateMessage fromUid toUid content clientMsgId now) =
      L.append (.new fromUid toUid content clientMsgId now) hfree hroom
        (Nat.two_pow_pos 63) := by
  rw [after, dif_pos ⟨hfree, hroom⟩]

theorem find_after_create_new (hfree : ¬L.Taken (fromUid, clientMsgId))
    (hroom : L.count + 1 < 2 ^ 63) (id : UInt64) :
    (L.after (.evalCreateMessage fromUid toUid content clientMsgId
      now)).find id =
      if id = L.nextId then some (.new fromUid toUid content clientMsgId now)
      else L.find id := by
  rw [after_create_new hfree hroom]
  exact find_append L (.new fromUid toUid content clientMsgId now) hfree hroom
    (Nat.two_pow_pos 63) id

theorem count_after_create_new (hfree : ¬L.Taken (fromUid, clientMsgId))
    (hroom : L.count + 1 < 2 ^ 63) :
    (L.after (.evalCreateMessage fromUid toUid content clientMsgId
      now)).count = L.count + 1 := by
  rw [after_create_new hfree hroom]
  rfl

end Create

/-- Where a message of the ledger after a request comes from: it was there
before, or it was created, or one of the scripts changed it. -/
theorem find_after_cases {L : Ledger} {request : RedisRequest} {id : UInt64}
    {m' : Message} (h : (L.after request).find id = some m') :
    L.find id = some m' ∨
    (∃ fromUid toUid content clientMsgId now,
      request =
        .evalCreateMessage fromUid toUid content clientMsgId now ∧
      ¬L.Taken (fromUid, clientMsgId) ∧ id = L.nextId ∧
      m' = .new fromUid toUid content clientMsgId now) ∨
    (∃ m script now, request = .evalMsgStateScript script id now ∧
      L.find id = some m ∧ m' = (script.change now).apply m) ∨
    (∃ m now, request = .evalMarkAckedScript id m.toUid now ∧
      L.find id = some m ∧ m' = { m with status := .acked, ackedAtMs := now }) ∨
    (∃ m, request = .evalIncrementRetryScript id ∧
      L.find id = some m ∧ m' = { m with retryCount := m.retryCount + 1 }) := by
  have hmodify : ∀ i change, (L.modify i change).find id = some m' →
      L.find id = some m' ∨
        id = i ∧ ∃ m, L.find id = some m ∧ m' = change.apply m := by
    intro i change hfind
    rw [find_modify] at hfind
    split at hfind
    · next heq =>
        obtain ⟨m, hm, hchange⟩ := Option.map_eq_some_iff.mp hfind
        exact .inr ⟨heq, m, by rw [heq, hm], hchange.symm⟩
    · exact .inl hfind
  cases request with
  | evalCreateMessage fromUid toUid content clientMsgId now =>
      by_cases hnew : ¬L.Taken (fromUid, clientMsgId) ∧ L.count + 1 < 2 ^ 63
      · rw [find_after_create_new hnew.1 hnew.2] at h
        split at h
        · next heq =>
            rw [Option.some.injEq] at h
            exact .inr (.inl ⟨fromUid, toUid, content, clientMsgId, now, rfl,
              hnew.1, heq, h.symm⟩)
        · exact .inl h
      · rw [after, dif_neg hnew] at h
        exact .inl h
  | evalMsgStateScript script i now =>
      rcases hmodify i _ h with hsame | ⟨rfl, m, hm, hm'⟩
      · exact .inl hsame
      · exact .inr (.inr (.inl ⟨m, script, now, rfl, hm, hm'⟩))
  | evalMarkAckedScript i ackUid now =>
      rcases hmodify i _ h with hsame | ⟨rfl, m, hm, hm'⟩
      · exact .inl hsame
      · by_cases huid : m.toUid = ackUid
        · simp only [Change.acknowledge, if_pos huid] at hm'
          exact .inr (.inr (.inr (.inl ⟨m, now, by rw [huid], hm, hm'⟩)))
        · simp only [Change.acknowledge, if_neg huid] at hm'
          rw [hm']
          exact .inl hm
  | evalIncrementRetryScript i =>
      rcases hmodify i _ h with hsame | ⟨rfl, m, hm, hm'⟩
      · exact .inl hsame
      · by_cases hroom : m.retryCount + 1 < 2 ^ 63
        · simp only [Change.retry, if_pos hroom] at hm'
          exact .inr (.inr (.inr (.inr ⟨m, rfl, hm, hm'⟩)))
        · simp only [Change.retry, if_neg hroom] at hm'
          rw [hm']
          exact .inl hm
  | hmgetRecord i => exact .inl h
  | zrangePending uid => exact .inl h
  | zrevrangeRecent uid stop => exact .inl h
  | zrangebyscoreTimeout maxScore => exact .inl h

/-- How often the message has been counted as retried; an id without a message
has not been. -/
def retryCountOf (L : Ledger) (id : UInt64) : ℕ :=
  ((L.find id).map Message.retryCount).getD 0

theorem retryCountOf_eq {L : Ledger} {id : UInt64} {m : Message}
    (h : L.find id = some m) : L.retryCountOf id = m.retryCount := by
  rw [retryCountOf, h]
  rfl

/-- Only the retry script counts. -/
theorem retryCountOf_after {L : Ledger} {request : RedisRequest} {id : UInt64}
    (h : request ≠ .evalIncrementRetryScript id) :
    (L.after request).retryCountOf id = L.retryCountOf id := by
  cases hm' : (L.after request).find id with
  | none =>
      have hnone : L.find id = none := by
        rw [Option.eq_none_iff_forall_ne_some]
        intro m hm
        obtain ⟨m', hsome, -⟩ := (L.extends_after request).2 id m hm
        rw [hm'] at hsome
        cases hsome
      rw [retryCountOf, retryCountOf, hm', hnone]
  | some m' =>
      rw [retryCountOf_eq hm']
      rcases find_after_cases hm' with
        hsame | ⟨_, _, _, _, _, -, -, rfl, rfl⟩ | ⟨m, script, now, -, hm, rfl⟩ |
        ⟨m, now, -, hm, rfl⟩ | ⟨m, rfl, -⟩
      · rw [retryCountOf_eq hsame]
      · rw [retryCountOf, L.find_nextId]
        rfl
      · rw [retryCountOf_eq hm]
        cases script with
        | markDelivered => rfl
        | markPending => rfl
        | markFailed => rfl
      · rw [retryCountOf_eq hm]
      · exact absurd rfl h

/-- The retry script counts one. -/
theorem retryCountOf_after_increment {L : Ledger} {id : UInt64} {m : Message}
    (hm : L.find id = some m) (hroom : m.retryCount + 1 < 2 ^ 63) :
    (L.after (.evalIncrementRetryScript id)).retryCountOf id =
      L.retryCountOf id + 1 := by
  have hm' : (L.after (.evalIncrementRetryScript id)).find id =
      some { m with retryCount := m.retryCount + 1 } := by
    simp only [after, find_modify, if_true, hm, Option.map_some, Change.retry,
      if_pos hroom]
  rw [retryCountOf_eq hm, retryCountOf_eq hm']

end Ledger

end ReliableDelivery
