import ReliableDelivery.Store.Ledger

/-!
# How Redis represents the ledger

`Represents` says which hashes, strings and sorted sets stand for a ledger.
Every index is determined by the messages: a message is in it exactly when it
has a score there.  The rules below carry the representation through one write
of a message and the index updates that go with it.
-/

namespace ReliableDelivery

open Decimal Redis

/-- The stored fields of a message, in the order of `recordFields`. -/
def Message.texts (m : Message) (msgId : UInt64) : List (Option Bytes) :=
  [some (toText msgId), some (toText m.fromUid), some (toText m.toUid),
    some m.content, some m.clientMsgId, some m.status.text,
    some (toText m.createdAtMs), some (toText m.deliveredAtMs),
    some (toText m.ackedAtMs), some (render m.retryCount)]

theorem MessageStatus.text_injective : Function.Injective text := by
  intro s s' h
  have hparse := parseStatus_text s
  rw [h, parseStatus_text s', Option.some.injEq] at hparse
  exact hparse.symm

theorem Message.texts_injective {m m' : Message} {id : UInt64}
    (h : m.texts id = m'.texts id) : m = m' := by
  simp only [texts, List.cons.injEq, Option.some.injEq, toText_inj, true_and,
    render_inj, and_true] at h
  obtain ⟨hfrom, hto, hcontent, hclient, hstatus, hcreated, hdelivered, hacked,
    hretry⟩ := h
  have hstatus' := MessageStatus.text_injective hstatus
  cases m
  cases m'
  simp_all

/-! ## Indexes -/

/-- Score of a message in the pending index of `uid`. -/
def pendingScore (uid : UInt64) (m : Message) : Option ℕ :=
  if m.toUid = uid ∧ m.status = .pending then some m.createdAtMs.toNat else none

/-- Score of a message in the recent index of `uid`. -/
def recentScore (uid : UInt64) (m : Message) : Option ℕ :=
  if m.fromUid = uid ∨ m.toUid = uid then some m.createdAtMs.toNat else none

/-- Score of a message in the timeout index. -/
def timeoutScore (m : Message) : Option ℕ :=
  if m.status = .delivered then some m.deliveredAtMs.toNat else none

/-- The sorted set lists exactly the messages that have a score, each under the
text of its id and with that score. -/
def Indexes (set : ZSet) (L : Ledger) (score : Message → Option ℕ) : Prop :=
  ∀ member s, set.score member = some s ↔
    ∃ id m, member = toText id ∧ L.find id = some m ∧ score m = some s

/-- The value of a key is such a sorted set. -/
def IndexHolds (v : Option Value) (L : Ledger) (score : Message → Option ℕ) :
    Prop :=
  ∃ set, zsetAt v = some set ∧ Indexes set L score

theorem Indexes.score_id {set : ZSet} {L : Ledger} {score : Message → Option ℕ}
    (h : Indexes set L score) {id : UInt64} {s : ℕ} :
    set.score (toText id) = some s ↔
      ∃ m, L.find id = some m ∧ score m = some s := by
  rw [h]
  constructor
  · rintro ⟨id', m, htext, hm, hs⟩
    rw [toText_inj] at htext
    subst htext
    exact ⟨m, hm, hs⟩
  · rintro ⟨m, hm, hs⟩
    exact ⟨id, m, rfl, hm, hs⟩

/-- Entries of other messages are untouched by a change of one message. -/
theorem Indexes.of_modify {set set' : ZSet} {L : Ledger}
    {score : Message → Option ℕ} {id : UInt64} {m : Message} {change : Change}
    (h : Indexes set L score) (hm : L.find id = some m)
    (hset : ∀ member, set'.score member =
      if member = toText id then score (change.apply m)
      else set.score member) :
    Indexes set' (L.modify id change) score := by
  intro member s
  rw [hset]
  by_cases hmember : member = toText id
  · rw [if_pos hmember]
    constructor
    · intro hs
      exact ⟨id, change.apply m, hmember,
        by rw [Ledger.find_modify, if_pos rfl, hm]; rfl, hs⟩
    · rintro ⟨id', m', htext, hm', hs⟩
      rw [hmember, toText_inj] at htext
      subst htext
      rw [Ledger.find_modify, if_pos rfl, hm, Option.map_some,
        Option.some.injEq] at hm'
      rw [hm']
      exact hs
  · rw [if_neg hmember, h member s]
    constructor
    · rintro ⟨id', m', htext, hm', hs⟩
      have hid : id' ≠ id := by
        rintro rfl
        exact hmember htext
      exact ⟨id', m', htext, by rw [Ledger.find_modify, if_neg hid, hm'], hs⟩
    · rintro ⟨id', m', htext, hm', hs⟩
      have hid : id' ≠ id := by
        rintro rfl
        exact hmember htext
      rw [Ledger.find_modify, if_neg hid] at hm'
      exact ⟨id', m', htext, hm', hs⟩

/-- An index in which the message keeps its score needs no write. -/
theorem Indexes.modify_same {set : ZSet} {L : Ledger}
    {score : Message → Option ℕ} {id : UInt64} {m : Message} {change : Change}
    (h : Indexes set L score) (hm : L.find id = some m)
    (hsame : score (change.apply m) = score m) :
    Indexes set (L.modify id change) score := by
  apply h.of_modify hm
  intro member
  split
  · next hmember =>
      subst hmember
      apply Option.ext
      intro s
      rw [h.score_id, hsame]
      constructor
      · rintro ⟨m', hm', hs⟩
        rw [hm, Option.some.injEq] at hm'
        rw [hm']
        exact hs
      · intro hs
        exact ⟨m, hm, hs⟩
  · rfl

theorem Indexes.modify_insert {set : ZSet} {L : Ledger}
    {score : Message → Option ℕ} {id : UInt64} {m : Message} {change : Change}
    {s : ℕ} (h : Indexes set L score) (hm : L.find id = some m)
    (hs : score (change.apply m) = some s) :
    Indexes (set.insert s (toText id)) (L.modify id change) score := by
  apply h.of_modify hm
  intro member
  rw [SortedSet.score_insert, hs]

theorem Indexes.modify_erase {set : ZSet} {L : Ledger}
    {score : Message → Option ℕ} {id : UInt64} {m : Message} {change : Change}
    (h : Indexes set L score) (hm : L.find id = some m)
    (hs : score (change.apply m) = none) :
    Indexes (set.erase (toText id)) (L.modify id change) score := by
  apply h.of_modify hm
  intro member
  rw [SortedSet.score_erase, hs]

/-- A new message enters the index with its score, if it has one. -/
theorem Indexes.of_append {set set' : ZSet} {L : Ledger}
    {score : Message → Option ℕ} {m : Message}
    {hfree : ¬L.Taken m.clientKey} {hroom : L.count + 1 < 2 ^ 63}
    {hretry : m.retryCount < 2 ^ 63} (h : Indexes set L score)
    (hset : ∀ member, set'.score member =
      if member = toText L.nextId then score m else set.score member) :
    Indexes set' (L.append m hfree hroom hretry) score := by
  intro member s
  rw [hset]
  by_cases hmember : member = toText L.nextId
  · rw [if_pos hmember]
    constructor
    · intro hs
      exact ⟨L.nextId, m, hmember, by rw [Ledger.find_append, if_pos rfl], hs⟩
    · rintro ⟨id', m', htext, hm', hs⟩
      rw [hmember, toText_inj] at htext
      subst htext
      rw [Ledger.find_append, if_pos rfl, Option.some.injEq] at hm'
      rw [hm']
      exact hs
  · rw [if_neg hmember, h member s]
    constructor
    · rintro ⟨id', m', htext, hm', hs⟩
      refine ⟨id', m', htext, ?_, hs⟩
      rw [Ledger.find_append, if_neg (Ledger.find_ne_nextId hm'), hm']
    · rintro ⟨id', m', htext, hm', hs⟩
      have hid : id' ≠ L.nextId := by
        rintro rfl
        exact hmember htext
      rw [Ledger.find_append, if_neg hid] at hm'
      exact ⟨id', m', htext, hm', hs⟩

theorem Indexes.score_nextId {set : ZSet} {L : Ledger}
    {score : Message → Option ℕ} (h : Indexes set L score) :
    set.score (toText L.nextId) = none := by
  cases hs : set.score (toText L.nextId) with
  | none => rfl
  | some s =>
      obtain ⟨m, hm, -⟩ := h.score_id.mp hs
      exact absurd rfl (Ledger.find_ne_nextId hm)

theorem Indexes.append_same {set : ZSet} {L : Ledger}
    {score : Message → Option ℕ} {m : Message}
    {hfree : ¬L.Taken m.clientKey} {hroom : L.count + 1 < 2 ^ 63}
    {hretry : m.retryCount < 2 ^ 63} (h : Indexes set L score)
    (hs : score m = none) :
    Indexes set (L.append m hfree hroom hretry) score := by
  apply h.of_append
  intro member
  split
  · next hmember => rw [hmember, h.score_nextId, hs]
  · rfl

theorem Indexes.append_insert {set : ZSet} {L : Ledger}
    {score : Message → Option ℕ} {m : Message}
    {hfree : ¬L.Taken m.clientKey} {hroom : L.count + 1 < 2 ^ 63}
    {hretry : m.retryCount < 2 ^ 63} {s : ℕ} (h : Indexes set L score)
    (hs : score m = some s) :
    Indexes (set.insert s (toText L.nextId))
      (L.append m hfree hroom hretry) score := by
  apply h.of_append
  intro member
  rw [SortedSet.score_insert, hs]

/-! ## The representation -/

/-- The entries of the store stand for the ledger. -/
structure Represents (entries : StoreKey → Option Value) (L : Ledger) : Prop where
  nextId : ∃ text, stringAt (entries .nextId) = some text ∧
    text.getD (render 0) = render L.count
  message : ∀ id m, L.find id = some m →
    ∃ fields, entries (.message id) = some (.hash fields) ∧
      recordFields.map fields = m.texts id
  noMessage : ∀ id, L.find id = none → entries (.message id) = none
  idempotency : ∀ id m, L.find id = some m →
    entries (.idempotency m.fromUid m.clientMsgId) = some (.string (toText id))
  noIdempotency : ∀ fromUid clientMsgId, ¬L.Taken (fromUid, clientMsgId) →
    entries (.idempotency fromUid clientMsgId) = none
  pending : ∀ uid, IndexHolds (entries (.pending uid)) L (pendingScore uid)
  recent : ∀ uid, IndexHolds (entries (.recent uid)) L (recentScore uid)
  timeout : IndexHolds (entries .deliveredTimeout) L timeoutScore

theorem indexHolds_empty (score : Message → Option ℕ) :
    IndexHolds none Ledger.empty score := by
  refine ⟨.empty, rfl, ?_⟩
  intro member s
  rw [SortedSet.score_empty]
  constructor
  · intro h
    cases h
  · rintro ⟨id, m, -, hm, -⟩
    cases hm

theorem represents_empty : Represents (entriesOf Db.empty) .empty where
  nextId := ⟨none, rfl, rfl⟩
  message _ _ h := by cases h
  noMessage _ _ := rfl
  idempotency _ _ h := by cases h
  noIdempotency _ _ _ := rfl
  pending uid := indexHolds_empty _
  recent uid := indexHolds_empty _
  timeout := indexHolds_empty _

/-- Rewriting one message.  Only the hash, the receiver's pending index and the
timeout index may be written. -/
theorem Represents.modify {entries entries' : StoreKey → Option Value}
    {L : Ledger} {id : UInt64} {m : Message} {change : Change} {fields : Fields}
    {pendingSet timeoutSet : ZSet}
    (h : Represents entries L) (hm : L.find id = some m)
    (hmessage : entries' (.message id) = some (.hash fields))
    (hfields : recordFields.map fields = (change.apply m).texts id)
    (hpending : zsetAt (entries' (.pending m.toUid)) = some pendingSet)
    (hpendingIndexes :
      Indexes pendingSet (L.modify id change) (pendingScore m.toUid))
    (htimeout : zsetAt (entries' .deliveredTimeout) = some timeoutSet)
    (htimeoutIndexes : Indexes timeoutSet (L.modify id change) timeoutScore)
    (hother : ∀ k, k ≠ .message id → k ≠ .pending m.toUid →
      k ≠ .deliveredTimeout → entries' k = entries k) :
    Represents entries' (L.modify id change) := by
  have horigin := change.origin m
  simp only [Message.origin, Prod.mk.injEq] at horigin
  obtain ⟨hfrom, hto, -, hclient, hcreated⟩ := horigin
  have hfind : (L.modify id change).find id = some (change.apply m) := by
    rw [Ledger.find_modify, if_pos rfl, hm]
    rfl
  have hfindOther : ∀ id', id' ≠ id →
      (L.modify id change).find id' = L.find id' := by
    intro id' hid
    rw [Ledger.find_modify, if_neg hid]
  have htaken : ∀ key, (L.modify id change).Taken key ↔ L.Taken key := by
    intro key
    constructor
    · rintro ⟨id', m', hm', hkey⟩
      by_cases hid : id' = id
      · subst hid
        rw [hfind, Option.some.injEq] at hm'
        refine ⟨id', m, hm, ?_⟩
        rw [← hkey, ← hm']
        exact (Message.clientKey_eq_of_origin_eq (change.origin m)).symm
      · rw [hfindOther id' hid] at hm'
        exact ⟨id', m', hm', hkey⟩
    · rintro ⟨id', m', hm', hkey⟩
      by_cases hid : id' = id
      · subst hid
        rw [hm, Option.some.injEq] at hm'
        refine ⟨id', change.apply m, hfind, ?_⟩
        rw [← hkey, ← hm']
        exact Message.clientKey_eq_of_origin_eq (change.origin m)
      · exact ⟨id', m', by rw [hfindOther id' hid, hm'], hkey⟩
  constructor
  · rw [hother .nextId (by simp) (by simp) (by simp)]
    exact h.nextId
  · intro id' m' hm'
    by_cases hid : id' = id
    · subst hid
      rw [hfind, Option.some.injEq] at hm'
      subst hm'
      exact ⟨fields, hmessage, hfields⟩
    · rw [hother (.message id') (by simpa using hid) (by simp) (by simp)]
      rw [hfindOther id' hid] at hm'
      exact h.message id' m' hm'
  · intro id' hnone
    by_cases hid : id' = id
    · subst hid
      rw [hfind] at hnone
      cases hnone
    · rw [hother (.message id') (by simpa using hid) (by simp) (by simp)]
      rw [hfindOther id' hid] at hnone
      exact h.noMessage id' hnone
  · intro id' m' hm'
    rw [hother _ (by simp) (by simp) (by simp)]
    by_cases hid : id' = id
    · subst hid
      rw [hfind, Option.some.injEq] at hm'
      subst hm'
      rw [hfrom, hclient]
      exact h.idempotency id' m hm
    · rw [hfindOther id' hid] at hm'
      exact h.idempotency id' m' hm'
  · intro fromUid clientMsgId hfree
    rw [hother _ (by simp) (by simp) (by simp)]
    rw [htaken] at hfree
    exact h.noIdempotency fromUid clientMsgId hfree
  · intro uid
    by_cases huid : uid = m.toUid
    · subst huid
      exact ⟨pendingSet, hpending, hpendingIndexes⟩
    · rw [hother _ (by simp) (by simpa using huid) (by simp)]
      obtain ⟨set, hset, hindexes⟩ := h.pending uid
      refine ⟨set, hset, hindexes.modify_same hm ?_⟩
      simp only [pendingScore, hto, Ne.symm huid, false_and, if_false]
  · intro uid
    rw [hother _ (by simp) (by simp) (by simp)]
    obtain ⟨set, hset, hindexes⟩ := h.recent uid
    refine ⟨set, hset, hindexes.modify_same hm ?_⟩
    simp only [recentScore, hfrom, hto, hcreated]
  · exact ⟨timeoutSet, htimeout, htimeoutIndexes⟩

/-- Writing a new message.  Its hash, the idempotency entry, the counter, the
receiver's pending index and both recent indexes are written. -/
theorem Represents.append {entries entries' : StoreKey → Option Value}
    {L : Ledger} {m : Message} {fields : Fields}
    {hfree : ¬L.Taken m.clientKey} {hroom : L.count + 1 < 2 ^ 63}
    {hretry : m.retryCount < 2 ^ 63}
    (h : Represents entries L) (hstatus : m.status = .pending)
    (hnextId : entries' .nextId = some (.string (render (L.count + 1))))
    (hmessage : entries' (.message L.nextId) = some (.hash fields))
    (hfields : recordFields.map fields = m.texts L.nextId)
    (hidem : entries' (.idempotency m.fromUid m.clientMsgId) =
      some (.string (toText L.nextId)))
    (hpending : IndexHolds (entries' (.pending m.toUid))
      (L.append m hfree hroom hretry) (pendingScore m.toUid))
    (hrecent : ∀ uid, uid = m.fromUid ∨ uid = m.toUid →
      IndexHolds (entries' (.recent uid)) (L.append m hfree hroom hretry)
        (recentScore uid))
    (hother : ∀ k, k ≠ .nextId → k ≠ .message L.nextId →
      k ≠ .idempotency m.fromUid m.clientMsgId → k ≠ .pending m.toUid →
      k ≠ .recent m.fromUid → k ≠ .recent m.toUid → entries' k = entries k) :
    Represents entries' (L.append m hfree hroom hretry) := by
  have hfindOther : ∀ id', id' ≠ L.nextId →
      (L.append m hfree hroom hretry).find id' = L.find id' := by
    intro id' hid
    rw [Ledger.find_append, if_neg hid]
  have hfind : (L.append m hfree hroom hretry).find L.nextId = some m := by
    rw [Ledger.find_append, if_pos rfl]
  constructor
  · exact ⟨some (render (L.count + 1)), by rw [hnextId]; rfl, rfl⟩
  · intro id' m' hm'
    by_cases hid : id' = L.nextId
    · subst hid
      rw [hfind, Option.some.injEq] at hm'
      subst hm'
      exact ⟨fields, hmessage, hfields⟩
    · rw [hother (.message id') (by simp) (by simpa using hid) (by simp)
        (by simp) (by simp) (by simp)]
      rw [hfindOther id' hid] at hm'
      exact h.message id' m' hm'
  · intro id' hnone
    by_cases hid : id' = L.nextId
    · subst hid
      rw [hfind] at hnone
      cases hnone
    · rw [hother (.message id') (by simp) (by simpa using hid) (by simp)
        (by simp) (by simp) (by simp)]
      rw [hfindOther id' hid] at hnone
      exact h.noMessage id' hnone
  · intro id' m' hm'
    by_cases hid : id' = L.nextId
    · subst hid
      rw [hfind, Option.some.injEq] at hm'
      subst hm'
      exact hidem
    · rw [hfindOther id' hid] at hm'
      have hkey : m'.clientKey ≠ m.clientKey :=
        fun heq => hfree ⟨id', m', hm', heq⟩
      have hne : StoreKey.idempotency m'.fromUid m'.clientMsgId ≠
          .idempotency m.fromUid m.clientMsgId := by
        simpa [Message.clientKey] using hkey
      rw [hother _ (by simp) (by simp) hne (by simp) (by simp) (by simp)]
      exact h.idempotency id' m' hm'
  · intro fromUid clientMsgId hfree'
    have hkey : (fromUid, clientMsgId) ≠ (m.fromUid, m.clientMsgId) := by
      intro heq
      exact hfree' ⟨L.nextId, m, hfind, heq.symm⟩
    have hne : StoreKey.idempotency fromUid clientMsgId ≠
        .idempotency m.fromUid m.clientMsgId := by
      simpa using hkey
    rw [hother _ (by simp) (by simp) hne (by simp) (by simp) (by simp)]
    apply h.noIdempotency
    rintro ⟨id', m', hm', hkey'⟩
    refine hfree' ⟨id', m', ?_, hkey'⟩
    rw [hfindOther id' (Ledger.find_ne_nextId hm'), hm']
  · intro uid
    by_cases huid : uid = m.toUid
    · subst huid
      exact hpending
    · rw [hother _ (by simp) (by simp) (by simp) (by simpa using huid)
        (by simp) (by simp)]
      obtain ⟨set, hset, hindexes⟩ := h.pending uid
      refine ⟨set, hset, hindexes.append_same ?_⟩
      simp only [pendingScore, Ne.symm huid, false_and, if_false]
  · intro uid
    by_cases huid : uid = m.fromUid ∨ uid = m.toUid
    · exact hrecent uid huid
    · have hfrom : uid ≠ m.fromUid := fun heq => huid (Or.inl heq)
      have hto : uid ≠ m.toUid := fun heq => huid (Or.inr heq)
      rw [hother _ (by simp) (by simp) (by simp) (by simp)
        (by simpa using hfrom) (by simpa using hto)]
      obtain ⟨set, hset, hindexes⟩ := h.recent uid
      refine ⟨set, hset, hindexes.append_same ?_⟩
      simp only [recentScore, Ne.symm hfrom, Ne.symm hto, or_self, if_false]
  · rw [hother _ (by simp) (by simp) (by simp) (by simp) (by simp) (by simp)]
    obtain ⟨set, hset, hindexes⟩ := h.timeout
    refine ⟨set, hset, hindexes.append_same ?_⟩
    simp only [timeoutScore, hstatus]
    rfl

end ReliableDelivery
