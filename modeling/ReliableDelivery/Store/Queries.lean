import ReliableDelivery.Store.Sequence
import Mathlib.Data.Set.Card

/-!
# Queries through the indexes

The three list queries read an index and then fetch the records it names.  A
reader of the code wants to know what they return in terms of the message
hashes alone.  `queries_equal_scan` says this for the pending and the timeout
query, `recentMessages_complete` for the recent history, and
`pendingMessages_ordered_iff` says when the pending messages of a user come in
the order of their ids.

A listing is handled once for all indexes: `Indexes.exists_ids_of_entries` turns
the entries of a sorted set into a list of ids, and `Ledger.records` says what
fetching these ids yields.
-/

namespace ReliableDelivery

open Decimal Redis TransitionSystem MessageStore

/-- The hash of the record's id holds a message, and this is its record. -/
def Stored (db : Db) (record : MessageRecord) : Prop :=
  ∃ m : Message, record = m.record record.msgId ∧
    recordFields.map (fieldOf db (makeMessageKey record.msgId)) =
      m.texts record.msgId

section Listing

variable {db : Db} {L : Ledger}

/-- The stored records are the records of the ledger. -/
theorem stored_iff (hL : Represents (entriesOf db) L) {record : MessageRecord} :
    Stored db record ↔
      ∃ m, L.find record.msgId = some m ∧ record = m.record record.msgId := by
  constructor
  · rintro ⟨m, hrecord, htexts⟩
    cases hm : L.find record.msgId with
    | none =>
        simp [recordFields, Message.texts, hL.fields_noMessage hm] at htexts
    | some m' =>
        rw [hL.fields_message hm] at htexts
        exact ⟨m', rfl, by rw [Message.texts_injective htexts]; exact hrecord⟩
  · rintro ⟨m, hm, hrecord⟩
    exact ⟨m, hrecord, hL.fields_message hm⟩

/-- Score of a numbered message in an index; zero if it has none. -/
def Ledger.scoreAt (L : Ledger) (score : Message → Option ℕ) (id : UInt64) : ℕ :=
  ((L.find id).bind score).getD 0

theorem Ledger.scoreAt_eq {score : Message → Option ℕ} {id : UInt64}
    {m : Message} {s : ℕ} (hm : L.find id = some m) (hs : score m = some s) :
    L.scoreAt score id = s := by
  rw [scoreAt, hm, Option.bind_some, hs, Option.getD_some]

/-- Part of an index, as a list of ids. -/
theorem Indexes.exists_ids_of_entries {set : ZSet}
    {score : Message → Option ℕ} (h : Indexes set L score)
    {l : List (ℕ × Bytes)} (hl : ∀ e ∈ l, e ∈ set.entries) :
    ∃ ids : List UInt64,
      l = ids.map fun id => (L.scoreAt score id, toText id) := by
  induction l with
  | nil => exact ⟨[], rfl⟩
  | cons e l ih =>
      obtain ⟨ids, hids⟩ := ih fun e' he' => hl e' (by simp [he'])
      obtain ⟨s, member⟩ := e
      have hscore : set.score member = some s :=
        SortedSet.mem_entries_iff.mp (hl _ (by simp))
      obtain ⟨id, m, rfl, hm, hs⟩ := (h member s).mp hscore
      refine ⟨id :: ids, ?_⟩
      rw [List.map_cons, Ledger.scoreAt_eq hm hs, ← hids]

/-- The ids an index lists, in its order. -/
structure ListsIds (L : Ledger) (score : Message → Option ℕ) (set : ZSet)
    (ids : List UInt64) : Prop where
  entries : set.entries = ids.map fun id => (L.scoreAt score id, toText id)
  nodup : ids.Nodup
  mem : ∀ id, id ∈ ids ↔ ∃ m s, L.find id = some m ∧ score m = some s
  sorted : ids.Pairwise fun a b =>
    L.scoreAt score a < L.scoreAt score b ∨
      L.scoreAt score a = L.scoreAt score b ∧ toText a < toText b

theorem Indexes.exists_listsIds {set : ZSet} {score : Message → Option ℕ}
    (h : Indexes set L score) : ∃ ids, ListsIds L score set ids := by
  obtain ⟨ids, hids⟩ := h.exists_ids_of_entries fun e he => he
  have hmembers : set.entries.map Prod.snd = ids.map toText := by
    rw [hids, List.map_map]
    rfl
  have hnodup : ids.Nodup := by
    have htexts : (ids.map toText).Nodup := by
      rw [← hmembers]
      exact set.membersNodup
    exact htexts.of_map toText
  refine ⟨ids, hids, hnodup, ?_, ?_⟩
  · intro id
    rw [mem_ids_iff hmembers]
    constructor
    · rintro ⟨s, hs⟩
      obtain ⟨m, hm, hscore⟩ :=
        h.score_id.mp (SortedSet.mem_entries_iff.mp hs)
      exact ⟨m, s, hm, hscore⟩
    · rintro ⟨m, s, hm, hscore⟩
      exact ⟨s, SortedSet.mem_entries_iff.mpr (h.score_id.mpr ⟨m, hm, hscore⟩)⟩
  · have hle := set.sorted
    rw [hids, List.pairwise_map] at hle
    apply (hle.and hnodup).imp
    rintro a b ⟨hab, hne⟩
    rw [Prod.Lex.le_iff] at hab
    rcases hab with hlt | ⟨heq, htext⟩
    · exact .inl hlt
    · refine .inr ⟨heq, lt_of_le_of_ne htext ?_⟩
      intro hsame
      exact hne (toText_inj.mp hsame)

/-- What fetching one id yields. -/
def Ledger.fetched (L : Ledger) (keep : MessageRecord → Bool) (id : UInt64) :
    Option MessageRecord :=
  ((L.find id).map fun m => m.record id).filter keep

theorem Ledger.fetched_eq_some_iff {keep : MessageRecord → Bool} {id : UInt64}
    {record : MessageRecord} :
    L.fetched keep id = some record ↔
      (∃ m, L.find id = some m ∧ record = m.record id) ∧ keep record = true := by
  rw [fetched, Option.filter_eq_some_iff, Option.map_eq_some_iff]
  simp only [eq_comm]

/-- What fetching the listed ids yields. -/
def Ledger.records (L : Ledger) (keep : MessageRecord → Bool)
    (ids : List UInt64) : List MessageRecord :=
  ids.filterMap (L.fetched keep)

theorem Ledger.records_cons (keep : MessageRecord → Bool) (id : UInt64)
    (ids : List UInt64) :
    L.records keep (id :: ids) =
      (L.fetched keep id).toList ++ L.records keep ids := by
  cases hrecord : L.fetched keep id with
  | none => rw [records, List.filterMap_cons_none hrecord]; rfl
  | some record => rw [records, List.filterMap_cons_some hrecord]; rfl

theorem Ledger.mem_records {keep : MessageRecord → Bool} {ids : List UInt64}
    {record : MessageRecord} :
    record ∈ L.records keep ids ↔ record.msgId ∈ ids ∧
      (∃ m, L.find record.msgId = some m ∧ record = m.record record.msgId) ∧
      keep record = true := by
  simp only [records, List.mem_filterMap, fetched_eq_some_iff]
  constructor
  · rintro ⟨id, hid, ⟨m, hm, rfl⟩, hkeep⟩
    exact ⟨hid, ⟨m, hm, rfl⟩, hkeep⟩
  · rintro ⟨hid, hrecord, hkeep⟩
    exact ⟨record.msgId, hid, hrecord, hkeep⟩

/-- The records come in the order of the ids. -/
theorem Ledger.records_sublist (keep : MessageRecord → Bool)
    (ids : List UInt64) :
    ((L.records keep ids).map MessageRecord.msgId).Sublist ids := by
  induction ids with
  | nil => exact List.Sublist.refl _
  | cons id ids ih =>
      rw [records_cons, List.map_append]
      cases hrecord : L.fetched keep id with
      | none => exact ih.cons id
      | some record =>
          obtain ⟨⟨m, hm, rfl⟩, -⟩ := fetched_eq_some_iff.mp hrecord
          exact ih.cons_cons id

/-- Where every listed id is a message to be kept, none is left out. -/
theorem Ledger.records_msgIds {keep : MessageRecord → Bool} {ids : List UInt64}
    (h : ∀ id ∈ ids, ∃ m, L.find id = some m ∧ keep (m.record id) = true) :
    (L.records keep ids).map MessageRecord.msgId = ids := by
  induction ids with
  | nil => rfl
  | cons id ids ih =>
      obtain ⟨m, hm, hkeep⟩ := h id (by simp)
      have hrecord : L.fetched keep id = some (m.record id) :=
        fetched_eq_some_iff.mpr ⟨⟨m, hm, rfl⟩, hkeep⟩
      have htail := ih fun id' hid' => h id' (by simp [hid'])
      rw [records_cons, hrecord, List.map_append, htail]
      rfl

/-- Fetching the elements of a listing. -/
theorem collect_listed (hL : Represents (entriesOf db) L)
    (keep : MessageRecord → Bool) (ids : List UInt64) (now : UInt64) :
    (collect (replyElements (some (replyOfIds ids))) (fetchElement keep) :
        Sequential (List MessageRecord)) now db =
      (L.records keep ids, db) := by
  have hfetch : ∀ id, (fetchElement keep (.bulk (toText id)) :
      Sequential (Option MessageRecord)) now db = (L.fetched keep id, db) := by
    intro id
    simp only [fetchElement, parseUint64_toText, fetchRecord]
    by_cases hid : id = 0
    · have hnone : L.fetched keep id = none := by
        cases hm : L.find id with
        | none => rw [Ledger.fetched, hm]; rfl
        | some m =>
            have hpos := ((L.numbered id).mp (by rw [hm]; rfl)).1
            rw [hid] at hpos
            exact absurd hpos (by decide)
      rw [if_pos hid, hnone]
      rfl
    · obtain ⟨reply, hrun, hread⟩ := run_hmgetRecord hL id
      rw [if_neg hid, Ledger.fetched, ← hread]
      change ((readRecordReply
        (some ((RedisRequest.hmgetRecord id).run db).1)).filter keep,
          ((RedisRequest.hmgetRecord id).run db).2) = _
      rw [hrun]
  induction ids with
  | nil => rfl
  | cons id ids ih =>
      change (let found := (fetchElement keep (.bulk (toText id)) :
            Sequential (Option MessageRecord)) now db
        let rest := (collect (replyElements (some (replyOfIds ids)))
            (fetchElement keep) : Sequential (List MessageRecord)) now found.2
        (found.1.toList ++ rest.1, rest.2)) = _
      simp only [hfetch, ih, Ledger.records_cons]

/-! ## The three queries -/

/-- A request that only reads, and what is done with its reply. -/
theorem command_bind {α : Type} {request : RedisRequest} {reply : Reply}
    (hrun : request.run db = (reply, db)) (f : Option Reply → Sequential α)
    (clock : UInt64) :
    (RedisClient.command request >>= f : Sequential α) clock db =
      f (some reply) clock db := by
  change f (some (request.run db).1) clock (request.run db).2 = _
  rw [hrun]

/-- The pending query fetches what the pending index lists. -/
theorem getPendingMessages_eq (hL : Represents (entriesOf db) L)
    (uid clock : UInt64) :
    ∃ set ids, ListsIds L (pendingScore uid) set ids ∧
      (getPendingMessages uid : Sequential (List MessageRecord)) clock db =
        (L.records (fun record =>
          record.toUid = uid && record.status = .pending) ids, db) := by
  obtain ⟨set, hset, hindexes⟩ := hL.pending uid
  obtain ⟨ids, hids⟩ := hindexes.exists_listsIds
  have hrun : (RedisRequest.zrangePending uid).run db = (replyOfIds ids, db) := by
    have hreply : replyOfMembers set.entries = replyOfIds ids := by
      simp only [replyOfMembers, replyOfIds, hids.entries, List.map_map]
      rfl
    rw [← hreply]
    exact eval_ok (Script.bind_ok (zentries_run hset))
  refine ⟨set, ids, hids, ?_⟩
  rw [getPendingMessages, command_bind hrun, collect_listed hL]

/-- The timeout query fetches what the timeout index lists up to a score. -/
theorem getTimeoutDeliveredMessages_eq (hL : Represents (entriesOf db) L)
    (nowMs timeoutMs clock : UInt64) :
    ∃ set ids, ListsIds L timeoutScore set ids ∧
      (getTimeoutDeliveredMessages nowMs timeoutMs :
          Sequential (List MessageRecord)) clock db =
        (L.records (fun record => record.status = .delivered &&
            decide (0 < record.deliveredAtMs) &&
            decide (record.deliveredAtMs ≤ nowMs) &&
            decide (timeoutMs ≤ nowMs - record.deliveredAtMs))
          (ids.filter fun id =>
            L.scoreAt timeoutScore id ≤ (nowMs.toNat - timeoutMs.toNat)), db) := by
  obtain ⟨set, hset, hindexes⟩ := hL.timeout
  obtain ⟨ids, hids⟩ := hindexes.exists_listsIds
  have hmax : (if timeoutMs ≤ nowMs then nowMs - timeoutMs else 0).toNat =
      nowMs.toNat - timeoutMs.toNat := by
    split
    · next hle => exact UInt64.toNat_sub_of_le _ _ hle
    · next hlt =>
        rw [UInt64.le_iff_toNat_le] at hlt
        rw [Nat.sub_eq_zero_of_le (by omega)]
        rfl
  have hrun : ∀ maxScore : UInt64,
      (RedisRequest.zrangebyscoreTimeout maxScore).run db =
        (replyOfIds (ids.filter fun id =>
          L.scoreAt timeoutScore id ≤ maxScore.toNat), db) := by
    intro maxScore
    have hreply : replyOfMembers
        (set.entries.filter fun e => e.1 ≤ maxScore.toNat) =
          replyOfIds (ids.filter fun id =>
            L.scoreAt timeoutScore id ≤ maxScore.toNat) := by
      simp only [replyOfMembers, replyOfIds, hids.entries, List.filter_map,
        List.map_map]
      rfl
    rw [← hreply]
    exact eval_ok (Script.bind_ok (zentries_run hset))
  refine ⟨set, ids, hids, ?_⟩
  rw [getTimeoutDeliveredMessages, command_bind (hrun _), collect_listed hL,
    hmax]

/-- What the recent query keeps. -/
def isOf (uid : UInt64) (record : MessageRecord) : Bool :=
  record.fromUid = uid || record.toUid = uid

/-- The recent query fetches the last ids of the recent index. -/
theorem getRecentMessages_eq (hL : Represents (entriesOf db) L)
    {uid limit : UInt64} (huid : uid ≠ 0) (hlimit : limit ≠ 0)
    (hbound : limit.toNat ≤ 2 ^ 63) (clock : UInt64) :
    ∃ set ids, ListsIds L (recentScore uid) set ids ∧
      (getRecentMessages uid limit : Sequential (List MessageRecord)) clock db =
        (L.records (isOf uid) (ids.drop (ids.length - limit.toNat)), db) := by
  obtain ⟨set, hset, hindexes⟩ := hL.recent uid
  obtain ⟨ids, hids⟩ := hindexes.exists_listsIds
  have hone : (1 : UInt64) ≤ limit := by
    rw [UInt64.le_iff_toNat_le]
    have hpos : limit.toNat ≠ 0 := by
      intro hzero
      exact hlimit (UInt64.toNat_inj.mp hzero)
    exact Nat.one_le_iff_ne_zero.mpr hpos
  have hstop : (limit - 1).toNat = limit.toNat - 1 :=
    UInt64.toNat_sub_of_le _ _ hone
  have hrange : ((limit - 1).toNat : ℤ) ≤ integerMax := by
    rw [hstop, integerMax]
    omega
  have hcount : (limit - 1).toNat + 1 = limit.toNat := by
    rw [UInt64.le_iff_toNat_le] at hone
    have : (1 : UInt64).toNat = 1 := rfl
    omega
  have hrun : (RedisRequest.zrevrangeRecent uid (limit - 1)).run db =
      (replyOfIds (ids.reverse.take limit.toNat), db) := by
    have hreply : replyOfMembers (set.entries.reverse.take limit.toNat) =
        replyOfIds (ids.reverse.take limit.toNat) := by
      simp only [replyOfMembers, replyOfIds, hids.entries, ← List.map_reverse,
        ← List.map_take, List.map_map]
      rfl
    rw [← hreply, ← hcount]
    apply eval_ok
    simp only [RedisRequest.script, zrevrange, hrange, if_true]
    exact Script.bind_ok (zentries_run hset)
  refine ⟨set, ids, hids, ?_⟩
  have hguard : ¬(uid = 0 ∨ limit = 0) := by
    rintro (h | h)
    · exact huid h
    · exact hlimit h
  rw [getRecentMessages, if_neg hguard, command_bind hrun]
  change (let result := (collect (replyElements
      (some (replyOfIds (ids.reverse.take limit.toNat)))) (fetchElement _) :
        Sequential (List MessageRecord)) clock db
    (result.1.reverse, result.2)) = _
  simp only [collect_listed hL, List.take_reverse, Ledger.records,
    List.filterMap_reverse, List.reverse_reverse]
  rfl

/-- The pending index lists the ids of the pending messages of a user. -/
theorem ListsIds.pending_mem {set : ZSet} {ids : List UInt64} {uid id : UInt64}
    (h : ListsIds L (pendingScore uid) set ids) :
    id ∈ ids ↔ ∃ m, L.find id = some m ∧ m.toUid = uid ∧ m.status = .pending := by
  rw [h.mem]
  constructor
  · rintro ⟨m, s, hm, hs⟩
    rw [pendingScore] at hs
    split at hs
    · next hpending => exact ⟨m, hm, hpending⟩
    · cases hs
  · rintro ⟨m, hm, hpending⟩
    exact ⟨m, m.createdAtMs.toNat, hm, by rw [pendingScore, if_pos hpending]⟩

/-- The recent index lists the ids of the messages from or to a user. -/
theorem ListsIds.recent_mem {set : ZSet} {ids : List UInt64} {uid id : UInt64}
    (h : ListsIds L (recentScore uid) set ids) :
    id ∈ ids ↔ ∃ m, L.find id = some m ∧ (m.fromUid = uid ∨ m.toUid = uid) := by
  rw [h.mem]
  constructor
  · rintro ⟨m, s, hm, hs⟩
    rw [recentScore] at hs
    split at hs
    · next huid => exact ⟨m, hm, huid⟩
    · cases hs
  · rintro ⟨m, hm, huid⟩
    exact ⟨m, m.createdAtMs.toNat, hm, by rw [recentScore, if_pos huid]⟩

/-- The timeout index lists the ids of the delivered messages. -/
theorem ListsIds.timeout_mem {set : ZSet} {ids : List UInt64} {id : UInt64}
    (h : ListsIds L timeoutScore set ids) :
    id ∈ ids ↔ ∃ m, L.find id = some m ∧ m.status = .delivered := by
  rw [h.mem]
  constructor
  · rintro ⟨m, s, hm, hs⟩
    rw [timeoutScore] at hs
    split at hs
    · next hstatus => exact ⟨m, hm, hstatus⟩
    · cases hs
  · rintro ⟨m, hm, hstatus⟩
    exact ⟨m, m.deliveredAtMs.toNat, hm, by rw [timeoutScore, if_pos hstatus]⟩

/-- The pending query returns the pending messages of the user, under the ids
the index lists. -/
theorem pendingMessages_mem (hL : Represents (entriesOf db) L)
    {uid : UInt64} {set : ZSet} {ids : List UInt64}
    (hids : ListsIds L (pendingScore uid) set ids) (record : MessageRecord) :
    record ∈ L.records (fun record =>
        record.toUid = uid && record.status = .pending) ids ↔
      Stored db record ∧ record.toUid = uid ∧ record.status = .pending := by
  rw [Ledger.mem_records, hids.pending_mem, stored_iff hL, Bool.and_eq_true,
    decide_eq_true_eq, decide_eq_true_eq]
  constructor
  · rintro ⟨-, hstored, hkeep⟩
    exact ⟨hstored, hkeep⟩
  · rintro ⟨⟨m, hm, hrecord⟩, hkeep⟩
    rw [hrecord] at hkeep
    refine ⟨⟨m, hm, hkeep⟩, ⟨m, hm, hrecord⟩, ?_⟩
    rw [hrecord]
    exact hkeep

/-- The timeout query in terms of the message hashes.  The bound on the score
and the second look at the record together say that the waiting time is over,
without wrap-around. -/
theorem timeoutMessages_mem (hL : Represents (entriesOf db) L)
    {nowMs timeoutMs : UInt64} {set : ZSet} {ids : List UInt64}
    (hids : ListsIds L timeoutScore set ids) (record : MessageRecord) :
    record ∈ L.records (fun record => record.status = .delivered &&
          decide (0 < record.deliveredAtMs) &&
          decide (record.deliveredAtMs ≤ nowMs) &&
          decide (timeoutMs ≤ nowMs - record.deliveredAtMs))
        (ids.filter fun id =>
          L.scoreAt timeoutScore id ≤ (nowMs.toNat - timeoutMs.toNat)) ↔
      Stored db record ∧ record.status = .delivered ∧
        0 < record.deliveredAtMs.toNat ∧
        record.deliveredAtMs.toNat + timeoutMs.toNat ≤ nowMs.toNat := by
  have htime : ∀ d : UInt64, d ≤ nowMs →
      (timeoutMs ≤ nowMs - d ↔ d.toNat + timeoutMs.toNat ≤ nowMs.toNat) := by
    intro d hd
    rw [UInt64.le_iff_toNat_le, UInt64.toNat_sub_of_le _ _ hd]
    rw [UInt64.le_iff_toNat_le] at hd
    omega
  have hzero : (0 : UInt64).toNat = 0 := rfl
  rw [Ledger.mem_records, List.mem_filter, hids.timeout_mem, stored_iff hL]
  simp only [Bool.and_eq_true, decide_eq_true_eq]
  constructor
  · rintro ⟨-, hstored, ⟨⟨hstatus, hpos⟩, hle⟩, hwait⟩
    rw [UInt64.lt_iff_toNat_lt, hzero] at hpos
    exact ⟨hstored, hstatus, hpos, (htime _ hle).mp hwait⟩
  · rintro ⟨⟨m, hm, hrecord⟩, hstatus, hpos, hwait⟩
    have hle : record.deliveredAtMs ≤ nowMs := by
      rw [UInt64.le_iff_toNat_le]
      omega
    have hstatus' : m.status = .delivered := by
      rw [hrecord] at hstatus
      exact hstatus
    have hscore : L.scoreAt timeoutScore record.msgId =
        record.deliveredAtMs.toNat := by
      rw [Ledger.scoreAt_eq hm (by rw [timeoutScore, if_pos hstatus'])]
      rw [hrecord]
      rfl
    refine ⟨⟨⟨m, hm, hstatus'⟩, ?_⟩, ⟨m, hm, hrecord⟩, ⟨⟨hstatus, ?_⟩, hle⟩,
      (htime _ hle).mpr hwait⟩
    · rw [hscore]
      omega
    · rw [UInt64.lt_iff_toNat_lt, hzero]
      exact hpos

theorem isOf_iff {uid : UInt64} {record : MessageRecord} :
    isOf uid record = true ↔ record.fromUid = uid ∨ record.toUid = uid := by
  rw [isOf, Bool.or_eq_true, decide_eq_true_eq, decide_eq_true_eq]

theorem recentMessages_mem (hL : Represents (entriesOf db) L)
    {uid : UInt64} {set : ZSet} {ids : List UInt64}
    (hids : ListsIds L (recentScore uid) set ids) (record : MessageRecord) :
    record ∈ L.records (isOf uid) ids ↔
      Stored db record ∧ (record.fromUid = uid ∨ record.toUid = uid) := by
  rw [Ledger.mem_records, hids.recent_mem, stored_iff hL, isOf_iff]
  constructor
  · rintro ⟨-, hrecord, huser⟩
    exact ⟨hrecord, huser⟩
  · rintro ⟨⟨m, hm, hrecord⟩, huser⟩
    refine ⟨⟨m, hm, ?_⟩, ⟨m, hm, hrecord⟩, huser⟩
    rw [hrecord] at huser
    exact huser

/-- Every id of the recent index is shown if it is fetched. -/
theorem ListsIds.recent_msgIds {uid : UInt64} {set : ZSet} {ids : List UInt64}
    (h : ListsIds L (recentScore uid) set ids) {shown : List UInt64}
    (hshown : ∀ id ∈ shown, id ∈ ids) :
    (L.records (isOf uid) shown).map MessageRecord.msgId = shown := by
  apply Ledger.records_msgIds
  intro id hid
  obtain ⟨m, hm, huser⟩ := h.recent_mem.mp (hshown id hid)
  exact ⟨m, hm, isOf_iff.mpr huser⟩

/-- The score of a record in the recent index is its creation time. -/
theorem recent_score {uid : UInt64} {ids : List UInt64} {record : MessageRecord}
    (h : record ∈ L.records (isOf uid) ids) :
    L.scoreAt (recentScore uid) record.msgId = record.createdAtMs.toNat := by
  obtain ⟨-, ⟨m, hm, hrecord⟩, huser⟩ := Ledger.mem_records.mp h
  rw [isOf_iff, hrecord] at huser
  have hscore : recentScore uid m = some m.createdAtMs.toNat := if_pos huser
  rw [Ledger.scoreAt_eq hm hscore]
  rw [hrecord]
  rfl

theorem ListsIds.sorted_le {score : Message → Option ℕ} {set : ZSet}
    {ids : List UInt64} (h : ListsIds L score set ids) :
    ids.Pairwise fun a b => L.scoreAt score a ≤ L.scoreAt score b :=
  h.sorted.imp fun h => h.elim le_of_lt fun heq => le_of_eq heq.1

end Listing

/-- The queries that go through the pending and the timeout index return what a
scan of all message hashes would: the pending messages of the user, and the
delivered messages whose waiting time is over, each once. -/
theorem queries_equal_scan (e : storeRuns.Execution) (clock : UInt64) :
    (∀ uid,
      let result := ((getPendingMessages uid :
        Sequential (List MessageRecord)) clock e.state).1
      (result.map MessageRecord.msgId).Nodup ∧
      ∀ record, record ∈ result ↔
        Stored e.state record ∧ record.toUid = uid ∧
          record.status = .pending) ∧
    (∀ nowMs timeoutMs,
      let result := ((getTimeoutDeliveredMessages nowMs timeoutMs :
        Sequential (List MessageRecord)) clock e.state).1
      (result.map MessageRecord.msgId).Nodup ∧
      ∀ record, record ∈ result ↔
        Stored e.state record ∧ record.status = .delivered ∧
          0 < record.deliveredAtMs.toNat ∧
          record.deliveredAtMs.toNat + timeoutMs.toNat ≤ nowMs.toNat) := by
  obtain ⟨L, hexplains⟩ := exists_explains e
  have hL := hexplains.represents
  constructor
  · intro uid
    obtain ⟨set, ids, hids, hresult⟩ := getPendingMessages_eq hL uid clock
    simp only [hresult]
    exact ⟨hids.nodup.sublist (Ledger.records_sublist _ _),
      pendingMessages_mem hL hids⟩
  · intro nowMs timeoutMs
    obtain ⟨set, ids, hids, hresult⟩ :=
      getTimeoutDeliveredMessages_eq hL nowMs timeoutMs clock
    simp only [hresult]
    exact ⟨(hids.nodup.filter _).sublist (Ledger.records_sublist _ _),
      timeoutMessages_mem hL hids⟩

/-! ## Recent history -/

/-- The recent history is complete and bounded.  It holds as many messages of
the user as the limit allows, each once and the oldest first.  A message left
out is no newer than any that is shown.  The store is not changed. -/
theorem recentMessages_complete (e : storeRuns.Execution)
    (uid limit clock : UInt64) (huid : uid ≠ 0) (hlimit : limit ≠ 0)
    (hbound : limit.toNat ≤ 2 ^ 63) :
    let call := (getRecentMessages uid limit :
      Sequential (List MessageRecord)) clock e.state
    let ofUser := {record | Stored e.state record ∧
      (record.fromUid = uid ∨ record.toUid = uid)}
    ofUser.Finite ∧ call.1.length = min limit.toNat ofUser.ncard ∧
      (call.1.map MessageRecord.msgId).Nodup ∧
      (∀ record ∈ call.1, record ∈ ofUser) ∧
      call.1.Pairwise (fun r r' => r.createdAtMs ≤ r'.createdAtMs) ∧
      (∀ record ∈ ofUser, record ∉ call.1 →
        ∀ r ∈ call.1, record.createdAtMs ≤ r.createdAtMs) ∧
      call.2 = e.state := by
  obtain ⟨L, hexplains⟩ := exists_explains e
  have hL := hexplains.represents
  obtain ⟨set, ids, hids, hresult⟩ :=
    getRecentMessages_eq hL huid hlimit hbound clock
  simp only [hresult]
  set shown := ids.drop (ids.length - limit.toNat) with hshown
  have hsublist : shown.Sublist ids := List.drop_sublist _ _
  have hall := hids.recent_msgIds fun id hid => hid
  have hsome := hids.recent_msgIds fun id hid => hsublist.subset hid
  have hmem : ∀ record, record ∈ L.records (isOf uid) shown ↔
      record ∈ L.records (isOf uid) ids ∧ record.msgId ∈ shown := by
    intro record
    rw [Ledger.mem_records, Ledger.mem_records]
    constructor
    · rintro ⟨hid, hrest⟩
      exact ⟨⟨hsublist.subset hid, hrest⟩, hid⟩
    · rintro ⟨⟨-, hrest⟩, hid⟩
      exact ⟨hid, hrest⟩
  have hofUser : {record | Stored e.state record ∧
      (record.fromUid = uid ∨ record.toUid = uid)} =
        ((L.records (isOf uid) ids).toFinset : Set MessageRecord) := by
    ext record
    rw [List.coe_toFinset]
    exact (recentMessages_mem hL hids record).symm
  have hcount : (L.records (isOf uid) ids).toFinset.card = ids.length := by
    have hnodup : (L.records (isOf uid) ids).Nodup := by
      apply List.Nodup.of_map MessageRecord.msgId
      rw [hall]
      exact hids.nodup
    rw [List.toFinset_card_of_nodup hnodup,
      ← List.length_map MessageRecord.msgId, hall]
  refine ⟨?_, ?_, ?_, ?_, ?_, ?_, trivial⟩
  · rw [hofUser]
    exact Finset.finite_toSet _
  · rw [hofUser, Set.ncard_coe_finset, hcount,
      ← List.length_map MessageRecord.msgId, hsome, hshown, List.length_drop]
    omega
  · rw [hsome]
    exact hids.nodup.sublist hsublist
  · intro record hrecord
    exact (recentMessages_mem hL hids record).mp ((hmem record).mp hrecord).1
  · have hpairs := hids.sorted_le.sublist hsublist
    rw [← hsome, List.pairwise_map] at hpairs
    apply hpairs.imp_of_mem
    intro r r' hr hr' hle
    rw [recent_score hr, recent_score hr'] at hle
    exact UInt64.le_iff_toNat_le.mpr hle
  · intro record hrecord hout r hr
    have hrecord' := (recentMessages_mem hL hids record).mpr hrecord
    have hid : record.msgId ∈ ids := (Ledger.mem_records.mp hrecord').1
    have hsorted := hids.sorted_le
    rw [← List.take_append_drop (ids.length - limit.toNat) ids] at hsorted hid
    rcases List.mem_append.mp hid with hbefore | hafter
    · have hle := (List.pairwise_append.mp hsorted).2.2 _ hbefore _
        ((hmem r).mp hr).2
      rw [recent_score hrecord', recent_score hr] at hle
      exact UInt64.le_iff_toNat_le.mpr hle
    · exact absurd ((hmem record).mpr ⟨hrecord', hafter⟩) hout

/-- Ten messages from user 1 to user 2, created in one millisecond. -/
def tenMessages : storeRuns.Execution :=
  (List.range 10).foldl
    (fun e n => call e (.createMessage 1 2 [] [UInt8.ofNat n]) 1000) noCalls

theorem recentMessages_complete_tenMessages :
    ((getRecentMessages 2 3 : Sequential (List MessageRecord)) 0
      tenMessages.state).1.length =
        min 3 {record | Stored tenMessages.state record ∧
          (record.fromUid = 2 ∨ record.toUid = 2)}.ncard :=
  (recentMessages_complete tenMessages 2 3 0 (by decide) (by decide)
    (by decide)).2.1

/-! ## The order of the pending messages -/

/-- The time a creation stamps on its message. -/
def StoreCall.creationTime (call : StoreCall) : Option UInt64 :=
  match call.op with
  | .createMessage _ _ _ _ => some call.now
  | _ => none

/-- The creation times of successive creations do not go back. -/
def ClockAdvances (e : storeRuns.Execution) : Prop :=
  (e.log StoreCall.creationTime).Pairwise (· ≤ ·)

/-- Ids and creation times grow together. -/
structure InCreationOrder (L : Ledger) (e : storeRuns.Execution) : Prop where
  represents : Represents (entriesOf e.state) L
  stamped : ∀ id m, L.find id = some m →
    m.createdAtMs ∈ e.log StoreCall.creationTime
  ordered : ∀ a b ma mb, L.find a = some ma → L.find b = some mb → a ≤ b →
    ma.createdAtMs ≤ mb.createdAtMs

/-- A call leaves the creation times alone, apart from that of the message it
creates. -/
theorem createdAtMs_after {L : Ledger} {op : StoreOp} {now : UInt64}
    {result : StoreResult} {id : UInt64} {m : Message}
    (hm : (L.after (op.request now)).find id = some m) :
    (∃ m', L.find id = some m' ∧ m'.createdAtMs = m.createdAtMs) ∨
      id = L.nextId ∧
        StoreCall.creationTime ⟨op, now, result⟩ = some m.createdAtMs := by
  rcases Ledger.find_after_cases hm with
    hsame | ⟨f, t, c, k, now', hrequest, -, hid, rfl⟩ |
    ⟨m', script, now', -, hm', rfl⟩ | ⟨m', now', -, hm', rfl⟩ |
    ⟨m', -, hm', rfl⟩
  · exact .inl ⟨m, hsame, rfl⟩
  · right
    cases op with
    | createMessage f' t' c' k' =>
        simp only [StoreOp.request, RedisRequest.evalCreateMessage.injEq]
          at hrequest
        rw [← hrequest.2.2.2.2]
        exact ⟨hid, rfl⟩
    | _ => cases hrequest
  · left
    have horigin := (script.change now').origin m'
    simp only [Message.origin, Prod.mk.injEq] at horigin
    exact ⟨m', hm', horigin.2.2.2.2.symm⟩
  · exact .inl ⟨m', hm', rfl⟩
  · exact .inl ⟨m', hm', rfl⟩

theorem exists_inCreationOrder (e : storeRuns.Execution)
    (hclock : ClockAdvances e) : ∃ L, InCreationOrder L e := by
  revert hclock
  apply Execution.induct
    (P := fun e => ClockAdvances e → ∃ L, InCreationOrder L e)
  · intro e hnil hinit _
    have hempty : e.state = .empty := hinit
    refine ⟨.empty, by rw [hempty]; exact represents_empty, ?_, ?_⟩
    · intro id m hm
      cases hm
    · intro a b ma mb hma
      cases hma
  · intro e e' call ih hnext hclock
    rw [ClockAdvances, Execution.log_next hnext, List.pairwise_append] at hclock
    obtain ⟨hbefore, -, hlast⟩ := hclock
    obtain ⟨L, hL⟩ := ih hbefore
    obtain ⟨op, now, result⟩ := call
    have hcases := fun id m => @createdAtMs_after L op now result id m
    refine ⟨L.after (op.request now),
      step_represents hnext.1 hL.represents, ?_, ?_⟩
    · intro id m hm
      rw [Execution.log_next hnext, List.mem_append]
      rcases hcases id m hm with ⟨m', hm', hsame⟩ | ⟨-, htime⟩
      · rw [← hsame]
        exact .inl (hL.stamped id m' hm')
      · rw [htime]
        exact .inr (by simp)
    · intro a b ma mb hma hmb hab
      rcases hcases b mb hmb with ⟨mb', hmb', hsame⟩ | ⟨hb, htime⟩
      · rcases hcases a ma hma with ⟨ma', hma', hsame'⟩ | ⟨ha, -⟩
        · rw [← hsame, ← hsame']
          exact hL.ordered a b ma' mb' hma' hmb' hab
        · have hle := ((L.numbered b).mp (by rw [hmb']; rfl)).2
          rw [ha, UInt64.le_iff_toNat_le, L.nextId_toNat] at hab
          omega
      · rcases hcases a ma hma with ⟨ma', hma', hsame'⟩ | ⟨-, htime'⟩
        · rw [← hsame']
          exact hlast _ (hL.stamped a ma' hma') _ (by simp [htime])
        · rw [htime, Option.some.injEq] at htime'
          rw [htime']
          exact UInt64.le_refl _

/-- The pending query lists the pending messages of the user, in strictly
increasing order of their ids. -/
def ListsInIdOrder (db : Db) (uid clock : UInt64) : Prop :=
  let result := ((getPendingMessages uid :
    Sequential (List MessageRecord)) clock db).1
  (∀ record, record ∈ result ↔
    Stored db record ∧ record.toUid = uid ∧ record.status = .pending) ∧
  result.Pairwise fun r r' => r.msgId < r'.msgId

/-- Of two pending messages of the user that were created in the same
millisecond, the one with the smaller id also has the smaller decimal text. -/
def TiesInTextOrder (db : Db) (uid : UInt64) : Prop :=
  ∀ r r', Stored db r → r.toUid = uid → r.status = .pending →
    Stored db r' → r'.toUid = uid → r'.status = .pending →
    r.createdAtMs = r'.createdAtMs → r.msgId < r'.msgId →
      toText r.msgId < toText r'.msgId

/-- The score of a record in the pending index is its creation time. -/
theorem pending_score {L : Ledger} {uid : UInt64} {record : MessageRecord}
    {m : Message} (hm : L.find record.msgId = some m)
    (hrecord : record = m.record record.msgId) (huid : record.toUid = uid)
    (hstatus : record.status = .pending) :
    L.scoreAt (pendingScore uid) record.msgId = record.createdAtMs.toNat := by
  rw [hrecord] at huid hstatus
  have hscore : pendingScore uid m = some m.createdAtMs.toNat :=
    if_pos ⟨huid, hstatus⟩
  rw [Ledger.scoreAt_eq hm hscore]
  rw [hrecord]
  rfl

/-- Two elements of a list related pairwise are related one way or the
other. -/
theorem pairwise_either {α : Type} {R : α → α → Prop} {l : List α} {a b : α}
    (h : l.Pairwise R) (ha : a ∈ l) (hb : b ∈ l) (hne : a ≠ b) :
    R a b ∨ R b a := by
  have : Std.Symm fun a b => R a b ∨ R b a := ⟨fun _ _ hab => hab.symm⟩
  exact (h.imp (S := fun a b => R a b ∨ R b a) Or.inl).forall ha hb hne

/-- Where scores grow with the ids, the order of the index is that of the ids
up to ties. -/
theorem ListsIds.ordered_iff {L : Ledger} {score : Message → Option ℕ}
    {set : ZSet} {ids : List UInt64} (h : ListsIds L score set ids)
    (hgrows : ∀ a ∈ ids, ∀ b ∈ ids, a ≤ b →
      L.scoreAt score a ≤ L.scoreAt score b) :
    ids.Pairwise (· < ·) ↔ ∀ a ∈ ids, ∀ b ∈ ids,
      L.scoreAt score a = L.scoreAt score b → a < b → toText a < toText b := by
  constructor
  · intro hsorted a ha b hb hsame hlt
    rcases pairwise_either (hsorted.and h.sorted) ha hb
        (UInt64.ne_of_lt hlt) with
      ⟨-, hlex⟩ | ⟨hgt, -⟩
    · rcases hlex with habsurd | ⟨-, htext⟩
      · exact absurd hsame (ne_of_lt habsurd)
      · exact htext
    · exact absurd hgt (UInt64.lt_asymm hlt)
  · intro hties
    apply (h.sorted.and h.nodup).imp_of_mem
    rintro a b ha hb ⟨hlex, hne⟩
    by_contra hnot
    have hlt : b < a :=
      UInt64.lt_of_le_of_ne (UInt64.not_lt.mp hnot) (Ne.symm hne)
    have hle := hgrows b hb a ha (UInt64.le_of_lt hlt)
    rcases hlex with hscore | ⟨hsame, htext⟩
    · omega
    · exact absurd (hties b hb a ha hsame.symm hlt) (not_lt_of_gt htext)

/-- A listed id belongs to a stored pending record of the user, whose creation
time is its score. -/
theorem ListsIds.pending_record {db : Db} {L : Ledger} {uid id : UInt64}
    {set : ZSet} {ids : List UInt64} (hL : Represents (entriesOf db) L)
    (h : ListsIds L (pendingScore uid) set ids) :
    id ∈ ids ↔ ∃ record, record.msgId = id ∧ Stored db record ∧
      record.toUid = uid ∧ record.status = .pending ∧
      L.scoreAt (pendingScore uid) id = record.createdAtMs.toNat := by
  rw [h.pending_mem]
  constructor
  · rintro ⟨m, hm, huid, hstatus⟩
    have hscore : pendingScore uid m = some m.createdAtMs.toNat :=
      if_pos ⟨huid, hstatus⟩
    exact ⟨m.record id, rfl, (stored_iff hL).mpr ⟨m, hm, rfl⟩, huid, hstatus,
      Ledger.scoreAt_eq hm hscore⟩
  · rintro ⟨record, rfl, hstored, huid, hstatus, -⟩
    obtain ⟨m, hm, hrecord⟩ := (stored_iff hL).mp hstored
    rw [hrecord] at huid hstatus
    exact ⟨m, hm, huid, hstatus⟩

/-- With creation times that do not go back, the pending messages of a user
come in the order of their ids exactly if no two of them were created in the
same millisecond and have texts in the opposite order.  The order of the texts
is bytewise, so that `10` comes before `9`. -/
theorem pendingMessages_ordered_iff (e : storeRuns.Execution)
    (hclock : ClockAdvances e) (uid clock : UInt64) :
    ListsInIdOrder e.state uid clock ↔ TiesInTextOrder e.state uid := by
  obtain ⟨L, horder⟩ := exists_inCreationOrder e hclock
  have hL := horder.represents
  obtain ⟨set, ids, hids, hresult⟩ := getPendingMessages_eq hL uid clock
  have hmsgIds : (L.records (fun record =>
      record.toUid = uid && record.status = .pending) ids).map
        MessageRecord.msgId = ids := by
    apply Ledger.records_msgIds
    intro id hid
    obtain ⟨m, hm, huid, hstatus⟩ := hids.pending_mem.mp hid
    refine ⟨m, hm, ?_⟩
    rw [Bool.and_eq_true, decide_eq_true_eq, decide_eq_true_eq]
    exact ⟨huid, hstatus⟩
  have hproperty : ListsInIdOrder e.state uid clock ↔
      ids.Pairwise (· < ·) := by
    have hpairs : (L.records (fun record =>
        record.toUid = uid && record.status = .pending) ids).Pairwise
          (fun r r' => r.msgId < r'.msgId) ↔ ids.Pairwise (· < ·) := by
      conv_rhs => rw [← hmsgIds, List.pairwise_map]
    simp only [ListsInIdOrder, hresult, hpairs]
    constructor
    · rintro ⟨-, hpairwise⟩
      exact hpairwise
    · intro hpairwise
      exact ⟨pendingMessages_mem hL hids, hpairwise⟩
  have hgrows : ∀ a ∈ ids, ∀ b ∈ ids, a ≤ b →
      L.scoreAt (pendingScore uid) a ≤ L.scoreAt (pendingScore uid) b := by
    intro a ha b hb hab
    obtain ⟨r, rfl, hr, -, -, hscore⟩ := (hids.pending_record hL).mp ha
    obtain ⟨r', rfl, hr', -, -, hscore'⟩ := (hids.pending_record hL).mp hb
    obtain ⟨m, hm, hrecord⟩ := (stored_iff hL).mp hr
    obtain ⟨m', hm', hrecord'⟩ := (stored_iff hL).mp hr'
    have hle := horder.ordered _ _ m m' hm hm' hab
    rw [hscore, hscore', hrecord, hrecord']
    exact UInt64.le_iff_toNat_le.mp hle
  rw [hproperty, hids.ordered_iff hgrows]
  constructor
  · intro hties r r' hr huid hstatus hr' huid' hstatus' hsame hlt
    obtain ⟨m, hm, hrecord⟩ := (stored_iff hL).mp hr
    obtain ⟨m', hm', hrecord'⟩ := (stored_iff hL).mp hr'
    have hscore := pending_score hm hrecord huid hstatus
    have hscore' := pending_score hm' hrecord' huid' hstatus'
    exact hties _ ((hids.pending_record hL).mpr
        ⟨r, rfl, hr, huid, hstatus, hscore⟩)
      _ ((hids.pending_record hL).mpr ⟨r', rfl, hr', huid', hstatus', hscore'⟩)
      (by rw [hscore, hscore', hsame]) hlt
  · intro hties a ha b hb hsame hlt
    obtain ⟨r, rfl, hr, huid, hstatus, hscore⟩ := (hids.pending_record hL).mp ha
    obtain ⟨r', rfl, hr', huid', hstatus', hscore'⟩ :=
      (hids.pending_record hL).mp hb
    rw [hscore, hscore'] at hsame
    exact hties r r' hr huid hstatus hr' huid' hstatus'
      (UInt64.toNat_inj.mp hsame) hlt

theorem clockAdvances_tenMessages : ClockAdvances tenMessages := by
  have hlog : tenMessages.log StoreCall.creationTime = List.replicate 10 1000 :=
    rfl
  rw [ClockAdvances, hlog]
  decide

theorem pendingMessages_ordered_iff_tenMessages :
    ListsInIdOrder tenMessages.state 2 0 ↔ TiesInTextOrder tenMessages.state 2 :=
  pendingMessages_ordered_iff tenMessages clockAdvances_tenMessages 2 0

/-- The tenth message is replayed right after the first. -/
theorem pendingMessages_tenth_second :
    ClockAdvances tenMessages ∧ ¬ListsInIdOrder tenMessages.state 2 0 := by
  refine ⟨clockAdvances_tenMessages, ?_⟩
  rintro ⟨-, hsorted⟩
  have hids : (((getPendingMessages 2 : Sequential (List MessageRecord)) 0
      tenMessages.state).1.map MessageRecord.msgId) =
        [1, 10, 2, 3, 4, 5, 6, 7, 8, 9] := by
    decide +kernel
  rw [← List.pairwise_map (f := MessageRecord.msgId), hids] at hsorted
  revert hsorted
  decide

end ReliableDelivery
