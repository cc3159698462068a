import ReliableDelivery.Store.Refinement

/-!
# What the callers of the store learn

Every reply read by `MessageStore` comes from the ledger that the database
represents, and the database afterwards represents `Ledger.after`.  A database
represents at most one ledger, so `StoreDb`, a database that represents some
ledger, has a ledger of its own.
-/

namespace ReliableDelivery

open Decimal Redis MessageStore

section Answers

variable {db : Db} {L : Ledger}

/-! ## Creation -/

theorem buildCreateResult_texts {m : Message} {id : UInt64} {mark : Bytes}
    (hretry : m.retryCount < 2 ^ 63) :
    buildCreateResult
        (.array (.bulk mark :: (m.texts id).map replyOfField)) =
      some { record := m.record id, created := mark = literal "1",
             ok := true } := by
  have hrecord : buildRecordFromFields
      (.array (.bulk mark :: (m.texts id).map replyOfField)) 1 =
        some (m.record id) :=
    @buildRecord_texts m id [.bulk mark] 1 rfl hretry
  have hlength :
      (Reply.bulk mark :: (m.texts id).map replyOfField).length = 11 := by
    simp [Message.texts]
  simp only [buildCreateResult, hlength, if_true, List.headD_cons,
    replyToString, hrecord]
  rfl

/-- A creation finds the existing message, or adds a new one, or fails because
all ids have been handed out. -/
theorem run_create (h : Represents (entriesOf db) L)
    (fromUid toUid : UInt64) (content clientMsgId : Bytes) (now : UInt64) :
    (∃ id m reply, L.find id = some m ∧
      m.clientKey = (fromUid, clientMsgId) ∧
      (RedisRequest.evalCreateMessage fromUid toUid content clientMsgId
        now).run db = (reply, db) ∧
      readCreateReply (some reply) =
        { record := m.record id, created := false, ok := true }) ∨
    (∃ (hfree : ¬L.Taken (fromUid, clientMsgId))
        (hroom : L.count + 1 < 2 ^ 63) (reply : Reply) (db' : Db),
      (RedisRequest.evalCreateMessage fromUid toUid content clientMsgId
        now).run db = (reply, db') ∧
      readCreateReply (some reply) =
        { record := (Message.new fromUid toUid content clientMsgId now).record
            L.nextId,
          created := true, ok := true } ∧
      Represents (entriesOf db')
        (L.append (.new fromUid toUid content clientMsgId now) hfree hroom
          (Nat.two_pow_pos 63))) ∨
    (¬L.Taken (fromUid, clientMsgId) ∧ ¬L.count + 1 < 2 ^ 63 ∧
      ∃ reply,
        (RedisRequest.evalCreateMessage fromUid toUid content clientMsgId
          now).run db = (reply, db) ∧
        readCreateReply (some reply) = {}) := by
  by_cases htaken : L.Taken (fromUid, clientMsgId)
  · obtain ⟨id, m, hm, hkey⟩ := htaken
    refine .inl ⟨id, m, _, hm, hkey, create_duplicate h hm hkey, ?_⟩
    simp only [readCreateReply,
      buildCreateResult_texts (L.retryFits id m hm)]
    rfl
  · right
    by_cases hroom : L.count + 1 < 2 ^ 63
    · obtain ⟨db', hrun, hrep⟩ := @create_new db L fromUid toUid now content
        clientMsgId h htaken hroom
      have hretry : (Message.new fromUid toUid content clientMsgId
          now).retryCount < 2 ^ 63 :=
        Nat.two_pow_pos 63
      refine .inl ⟨htaken, hroom, _, db', hrun, ?_, hrep⟩
      simp only [newReply, readCreateReply, buildCreateResult_texts hretry]
      rfl
    · exact .inr ⟨htaken, hroom, _, create_exhausted h htaken hroom, rfl⟩

/-! ## Queries -/

/-- Reading a record returns the message, and nothing for an unknown id. -/
theorem run_hmgetRecord (h : Represents (entriesOf db) L) (id : UInt64) :
    ∃ reply, (RedisRequest.hmgetRecord id).run db = (reply, db) ∧
      readRecordReply (some reply) = (L.find id).map fun m => m.record id := by
  cases hm : L.find id with
  | none =>
      have habsent := h.noMessage id hm
      have hhash : hashAt (db (makeMessageKey id)) = some fun _ => none := by
        change hashAt (entriesOf db (.message id)) = _
        rw [habsent]
        rfl
      refine ⟨_, eval_ok (Script.bind_ok (hmget_run hhash)), ?_⟩
      rfl
  | some m =>
      obtain ⟨fields, -, -, hmessage, hfields, -⟩ := h.found hm
      have hhash : hashAt (db (makeMessageKey id)) = some fields := by
        rw [hmessage]
        rfl
      refine ⟨_, eval_ok (Script.bind_ok (hmget_run hhash)), ?_⟩
      rw [hfields]
      have hlength : ((m.texts id).map replyOfField).length = 10 := by
        simp [Message.texts]
      simp only [readRecordReply, hlength, if_true]
      exact @buildRecord_texts m id [] 0 rfl (L.retryFits id m hm)

/-- The elements of an index reply name ids. -/
def replyOfIds (ids : List UInt64) : Reply :=
  .array (ids.map fun id => .bulk (toText id))

@[simp] theorem filterMap_replyOfIds (ids : List UInt64) :
    (replyElements (some (replyOfIds ids))).filterMap parseUint64 = ids := by
  have hparse : (parseUint64 ∘ fun id => Reply.bulk (toText id)) = some := by
    funext id
    exact parseUint64_toText id
  change (ids.map fun id => Reply.bulk (toText id)).filterMap parseUint64 = ids
  rw [List.filterMap_map, hparse, List.filterMap_some]

/-- The listing of an index, as a list of ids. -/
theorem Indexes.exists_ids {set : ZSet} {score : Message → Option ℕ}
    (h : Indexes set L score) {l : List (ℕ × Bytes)}
    (hl : ∀ e ∈ l, e ∈ set.entries) :
    ∃ ids : List UInt64, replyOfMembers l = replyOfIds ids ∧
      l.map Prod.snd = ids.map toText ∧ ∀ id ∈ ids, ∃ m, L.find id = some m := by
  induction l with
  | nil => exact ⟨[], rfl, rfl, by simp⟩
  | cons e l ih =>
      obtain ⟨ids, hids, hmembers, hfound⟩ :=
        ih fun e' he' => hl e' (by simp [he'])
      obtain ⟨s, member⟩ := e
      have hscore : set.score member = some s :=
        SortedSet.mem_entries_iff.mp (hl _ (by simp))
      obtain ⟨id, m, rfl, hm, -⟩ := (h member s).mp hscore
      refine ⟨id :: ids, ?_, ?_, ?_⟩
      · simp only [replyOfMembers, replyOfIds, Reply.array.injEq] at hids ⊢
        simp only [List.map_cons, hids]
      · simp only [List.map_cons, hmembers]
      · rintro id' (_ | ⟨_, hid'⟩)
        · exact ⟨m, hm⟩
        · exact hfound id' hid'

/-- The ids of a listing are its members. -/
theorem mem_ids_iff {l : List (ℕ × Bytes)} {ids : List UInt64}
    (h : l.map Prod.snd = ids.map toText) (id : UInt64) :
    id ∈ ids ↔ ∃ s, (s, toText id) ∈ l := by
  have hmem : id ∈ ids ↔ toText id ∈ l.map Prod.snd := by
    rw [h, List.mem_map]
    constructor
    · intro hid
      exact ⟨id, hid, rfl⟩
    · rintro ⟨id', hid', heq⟩
      rw [← toText_inj.mp heq]
      exact hid'
  rw [hmem]
  simp

/-- The ids of a whole index are listed by their scores. -/
theorem Indexes.ids_sorted {set : ZSet} {score : Message → Option ℕ}
    (h : Indexes set L score) {ids : List UInt64}
    (hids : set.entries.map Prod.snd = ids.map toText) :
    ids.Pairwise fun a b => ∀ ma mb s s', L.find a = some ma →
      L.find b = some mb → score ma = some s → score mb = some s' → s ≤ s' := by
  have hmembers : (set.entries.map Prod.snd).Pairwise fun a b =>
      ∀ s s', set.score a = some s → set.score b = some s' → s ≤ s' := by
    rw [List.pairwise_map]
    apply set.sorted.imp_of_mem
    rintro ⟨s₁, a⟩ ⟨s₂, b⟩ ha hb hle s s' hs hs'
    rw [SortedSet.mem_entries_iff.mp ha, Option.some.injEq] at hs
    rw [SortedSet.mem_entries_iff.mp hb, Option.some.injEq] at hs'
    rw [← hs, ← hs']
    exact (Prod.Lex.le_iff.mp hle).elim le_of_lt fun heq => le_of_eq heq.1
  rw [hids, List.pairwise_map] at hmembers
  apply hmembers.imp
  intro a b hscores ma mb s s' hma hmb hs hs'
  exact hscores s s' (h.score_id.mpr ⟨ma, hma, hs⟩)
    (h.score_id.mpr ⟨mb, hmb, hs'⟩)

/-- The pending index of a user names exactly the pending messages to it, the
oldest first. -/
theorem run_zrangePending (h : Represents (entriesOf db) L) (uid : UInt64) :
    ∃ ids, (RedisRequest.zrangePending uid).run db = (replyOfIds ids, db) ∧
      (∀ id, id ∈ ids ↔
        ∃ m, L.find id = some m ∧ m.toUid = uid ∧ m.status = .pending) ∧
      ids.Pairwise fun a b => ∀ ma mb, L.find a = some ma →
        L.find b = some mb → ma.createdAtMs ≤ mb.createdAtMs := by
  obtain ⟨set, hset, hindexes⟩ := h.pending uid
  obtain ⟨ids, hids, hmembers, -⟩ := hindexes.exists_ids fun e he => he
  have hmem : ∀ id, id ∈ ids ↔
      ∃ m, L.find id = some m ∧ m.toUid = uid ∧ m.status = .pending := by
    intro id
    rw [mem_ids_iff hmembers]
    constructor
    · rintro ⟨s, hs⟩
      obtain ⟨m, hm, hscore⟩ :=
        hindexes.score_id.mp (SortedSet.mem_entries_iff.mp hs)
      rw [pendingScore] at hscore
      split at hscore
      · next hpending => exact ⟨m, hm, hpending⟩
      · cases hscore
    · rintro ⟨m, hm, hpending⟩
      refine ⟨m.createdAtMs.toNat, SortedSet.mem_entries_iff.mpr
        (hindexes.score_id.mpr ⟨m, hm, ?_⟩)⟩
      rw [pendingScore, if_pos hpending]
  refine ⟨ids, ?_, hmem, ?_⟩
  · rw [← hids]
    exact eval_ok (Script.bind_ok (zentries_run hset))
  · have hscore : ∀ id ∈ ids, ∀ m, L.find id = some m →
        pendingScore uid m = some m.createdAtMs.toNat := by
      intro id hid m hm
      obtain ⟨m', hm', hpending⟩ := (hmem id).mp hid
      rw [hm, Option.some.injEq] at hm'
      rw [pendingScore, if_pos (by rw [hm']; exact hpending)]
    apply (hindexes.ids_sorted hmembers).imp_of_mem
    intro a b ha hb hle ma mb hma hmb
    exact UInt64.le_iff_toNat_le.mpr
      (hle ma mb _ _ hma hmb (hscore a ha ma hma) (hscore b hb mb hmb))

/-- The recent index of a user names messages; an index out of range is an
error. -/
theorem run_zrevrangeRecent (h : Represents (entriesOf db) L)
    (uid stop : UInt64) :
    ∃ ids reply, (RedisRequest.zrevrangeRecent uid stop).run db = (reply, db) ∧
      replyElements (some reply) = replyElements (some (replyOfIds ids)) ∧
      ∀ id ∈ ids, ∃ m, L.find id = some m := by
  obtain ⟨set, hset, hindexes⟩ := h.recent uid
  by_cases hstop : (stop.toNat : ℤ) ≤ integerMax
  · obtain ⟨ids, hids, -, hfound⟩ := hindexes.exists_ids
      (l := set.entries.reverse.take (stop.toNat + 1)) (fun e he =>
        List.mem_reverse.mp (List.mem_of_mem_take he))
    refine ⟨ids, replyOfIds ids, ?_, rfl, hfound⟩
    rw [← hids]
    apply eval_ok
    simp only [RedisRequest.script, zrevrange, hstop, if_true]
    exact Script.bind_ok (zentries_run hset)
  · refine ⟨[], .error .notAnInteger, ?_, rfl, by simp⟩
    apply eval_error
    simp only [RedisRequest.script, zrevrange, hstop, if_false,
      Script.fail_run]

/-- The timeout index up to a score names messages, each once. -/
theorem run_zrangebyscoreTimeout (h : Represents (entriesOf db) L)
    (maxScore : UInt64) :
    ∃ ids, (RedisRequest.zrangebyscoreTimeout maxScore).run db =
      (replyOfIds ids, db) ∧ ids.Nodup ∧ ∀ id ∈ ids, ∃ m, L.find id = some m := by
  obtain ⟨set, hset, hindexes⟩ := h.timeout
  obtain ⟨ids, hids, hmembers, hfound⟩ := hindexes.exists_ids
    (l := set.entries.filter fun e => e.1 ≤ maxScore.toNat)
    (fun e he => (List.mem_filter.mp he).1)
  refine ⟨ids, ?_, ?_, hfound⟩
  · rw [← hids]
    exact eval_ok (Script.bind_ok (zentries_run hset))
  · have hnodup : (ids.map toText).Nodup := by
      rw [← hmembers]
      exact set.membersNodup.sublist (List.filter_sublist.map Prod.snd)
    exact hnodup.of_map toText

/-- The requests that read an index. -/
def RedisRequest.lists : RedisRequest → Bool
  | .zrangePending _ => true
  | .zrevrangeRecent _ _ => true
  | .zrangebyscoreTimeout _ => true
  | _ => false

/-- What an index lists is a message. -/
theorem run_lists (h : Represents (entriesOf db) L) {request : RedisRequest}
    (hlists : request.lists = true) {id : UInt64}
    (hid : id ∈ (replyElements (some (request.run db).1)).filterMap
      parseUint64) :
    ∃ m, L.find id = some m := by
  cases request with
  | zrangePending uid =>
      obtain ⟨ids, hrun, hids, -⟩ := run_zrangePending h uid
      rw [hrun, filterMap_replyOfIds] at hid
      obtain ⟨m, hm, -⟩ := (hids id).mp hid
      exact ⟨m, hm⟩
  | zrevrangeRecent uid stop =>
      obtain ⟨ids, reply, hrun, hreply, hfound⟩ := run_zrevrangeRecent h uid stop
      rw [hrun, hreply, filterMap_replyOfIds] at hid
      exact hfound id hid
  | zrangebyscoreTimeout maxScore =>
      obtain ⟨ids, hrun, -, hfound⟩ := run_zrangebyscoreTimeout h maxScore
      rw [hrun, filterMap_replyOfIds] at hid
      exact hfound id hid
  | _ => cases hlists

/-! ## Every request -/

/-- A database that represents a ledger represents the ledger after a request
once the request has been executed. -/
theorem Represents.after (h : Represents (entriesOf db) L)
    (request : RedisRequest) :
    Represents (entriesOf (request.run db).2) (L.after request) := by
  cases request with
  | evalCreateMessage fromUid toUid content clientMsgId now =>
      rcases run_create h fromUid toUid content clientMsgId now with
        ⟨id, m, reply, hm, hkey, hrun, -⟩ |
        ⟨hfree, hroom, reply, db', hrun, -, hrep⟩ |
        ⟨-, hroom, reply, hrun, -⟩
      · have htaken : L.Taken (fromUid, clientMsgId) := ⟨id, m, hm, hkey⟩
        rw [hrun, Ledger.after, dif_neg (fun hnew => hnew.1 htaken)]
        exact h
      · rw [hrun, Ledger.after, dif_pos ⟨hfree, hroom⟩]
        exact hrep
      · rw [hrun, Ledger.after, dif_neg (fun hnew => hroom hnew.2)]
        exact h
  | evalMsgStateScript script id now =>
      rcases run_msgState h script id now with
        ⟨m, db', -, hrun, hrep⟩ | ⟨hnone, hrun⟩
      · rw [hrun]
        exact hrep
      · rw [hrun, Ledger.after, Ledger.modify_absent hnone]
        exact h
  | evalMarkAckedScript id ackUid now =>
      rcases run_markAcked h id ackUid now with
        ⟨m, db', -, -, hrun, hrep⟩ | ⟨hother, hrun⟩
      · rw [hrun]
        exact hrep
      · have hsame : ∀ m, L.find id = some m →
            (Change.acknowledge ackUid now).apply m = m := by
          intro m hm
          exact if_neg (hother m hm)
        rw [hrun, Ledger.after, Ledger.modify_same hsame]
        exact h
  | evalIncrementRetryScript id =>
      rcases run_incrementRetry h id with
        ⟨m, db', -, -, hrun, hrep⟩ | ⟨hfull, reply, -, hrun⟩
      · rw [hrun]
        exact hrep
      · have hsame : ∀ m, L.find id = some m → Change.retry.apply m = m := by
          intro m hm
          exact if_neg (hfull m hm)
        rw [hrun, Ledger.after, Ledger.modify_same hsame]
        exact h
  | hmgetRecord id =>
      obtain ⟨reply, hrun, -⟩ := run_hmgetRecord h id
      rw [hrun]
      exact h
  | zrangePending uid =>
      obtain ⟨ids, hrun, -⟩ := run_zrangePending h uid
      rw [hrun]
      exact h
  | zrevrangeRecent uid stop =>
      obtain ⟨ids, reply, hrun, -⟩ := run_zrevrangeRecent h uid stop
      rw [hrun]
      exact h
  | zrangebyscoreTimeout maxScore =>
      obtain ⟨ids, hrun, -⟩ := run_zrangebyscoreTimeout h maxScore
      rw [hrun]
      exact h

/-- The messages can be read off the entries, so they determine the ledger. -/
theorem Represents.unique {L' : Ledger} (h : Represents (entriesOf db) L)
    (h' : Represents (entriesOf db) L') : L = L' := by
  have hcount : L.count = L'.count := by
    obtain ⟨text, htext, hcount⟩ := h.nextId
    obtain ⟨text', htext', hcount'⟩ := h'.nextId
    rw [htext, Option.some.injEq] at htext'
    rw [← htext', hcount] at hcount'
    exact render_injective hcount'
  have hfind : L.find = L'.find := by
    funext id
    cases hm : L.find id with
    | none =>
        cases hm' : L'.find id with
        | none => rfl
        | some m' =>
            obtain ⟨fields, hentry, -⟩ := h'.message id m' hm'
            rw [h.noMessage id hm] at hentry
            cases hentry
    | some m =>
        cases hm' : L'.find id with
        | none =>
            obtain ⟨fields, hentry, -⟩ := h.message id m hm
            rw [h'.noMessage id hm'] at hentry
            cases hentry
        | some m' =>
            obtain ⟨fields, hentry, hfields⟩ := h.message id m hm
            obtain ⟨fields', hentry', hfields'⟩ := h'.message id m' hm'
            rw [hentry, Option.some.injEq, Value.hash.injEq] at hentry'
            rw [← hentry', hfields] at hfields'
            rw [Message.texts_injective hfields']
  cases L
  cases L'
  simp only [Ledger.mk.injEq]
  exact ⟨hcount, hfind⟩

/-! ## Reading the database directly -/

/-- The fields of a message hash. -/
theorem Represents.fields_message {id : UInt64} {m : Message}
    (h : Represents (entriesOf db) L) (hm : L.find id = some m) :
    recordFields.map (fieldOf db (makeMessageKey id)) = m.texts id := by
  obtain ⟨fields, -, -, hmessage, hfields, -⟩ := h.found hm
  have hfield : fieldOf db (makeMessageKey id) = fields := by
    funext field
    simp only [fieldOf, hmessage, hashAt_hash, Option.bind_some]
  rw [hfield, hfields]

theorem Represents.fields_noMessage {id : UInt64}
    (h : Represents (entriesOf db) L) (hm : L.find id = none)
    (field : Bytes) : fieldOf db (makeMessageKey id) field = none := by
  have habsent : db (makeMessageKey id) = none := h.noMessage id hm
  simp only [fieldOf, habsent, hashAt, Option.bind_some]

theorem Represents.fromUid_iff (h : Represents (entriesOf db) L)
    (id uid : UInt64) :
    fieldOf db (makeMessageKey id) (literal "from_uid") = some (toText uid) ↔
      ∃ m, L.find id = some m ∧ m.fromUid = uid := by
  cases hm : L.find id with
  | none => simp [h.fields_noMessage hm]
  | some m =>
      have hfields := h.fields_message hm
      simp only [recordFields, Message.texts, List.map_cons,
        List.cons.injEq] at hfields
      simp [hfields.2.1]

theorem Represents.toUid_iff (h : Represents (entriesOf db) L)
    (id uid : UInt64) :
    fieldOf db (makeMessageKey id) (literal "to_uid") = some (toText uid) ↔
      ∃ m, L.find id = some m ∧ m.toUid = uid := by
  cases hm : L.find id with
  | none => simp [h.fields_noMessage hm]
  | some m => simp [field_toUid (h.fields_message hm)]

theorem Represents.status_iff (h : Represents (entriesOf db) L)
    (id : UInt64) (status : MessageStatus) :
    fieldOf db (makeMessageKey id) (literal "status") = some status.text ↔
      ∃ m, L.find id = some m ∧ m.status = status := by
  cases hm : L.find id with
  | none => simp [h.fields_noMessage hm]
  | some m =>
      have hfields := h.fields_message hm
      simp only [recordFields, Message.texts, List.map_cons,
        List.cons.injEq] at hfields
      simp [hfields.2.2.2.2.2.1, MessageStatus.text_injective.eq_iff]

/-- A message hash exists. -/
def HasMessage (db : Db) (id : UInt64) : Prop :=
  ∃ fields, db (makeMessageKey id) = some (.hash fields)

theorem hasMessage_iff (hL : Represents (entriesOf db) L) (id : UInt64) :
    HasMessage db id ↔ ∃ m, L.find id = some m := by
  constructor
  · rintro ⟨fields, hfields⟩
    cases hm : L.find id with
    | none =>
        have habsent : db (makeMessageKey id) = none := hL.noMessage id hm
        rw [habsent] at hfields
        cases hfields
    | some m => exact ⟨m, rfl⟩
  · rintro ⟨m, hm⟩
    obtain ⟨fields, hfields, -⟩ := hL.message id m hm
    exact ⟨fields, hfields⟩

/-- A message can be told by its status. -/
theorem hasMessage_iff_status (hL : Represents (entriesOf db) L) (id : UInt64) :
    HasMessage db id ↔
      (fieldOf db (makeMessageKey id) (literal "status")).isSome = true := by
  rw [hasMessage_iff hL]
  cases hm : L.find id with
  | none => simp [hL.fields_noMessage hm]
  | some m => simp [(hL.status_iff id m.status).mpr ⟨m, hm, rfl⟩]

/-- Which members an index lists, and with which score. -/
theorem IndexHolds.scoreOf_iff {key : Bytes} {score : Message → Option ℕ}
    (h : IndexHolds (db key) L score) (member : Bytes) (s : ℕ) :
    scoreOf db key member = some s ↔
      ∃ id m, member = toText id ∧ L.find id = some m ∧ score m = some s := by
  obtain ⟨set, hset, hindexes⟩ := h
  simp only [scoreOf, hset, Option.bind_some]
  exact hindexes member s

end Answers

/-! ## A store database -/

/-- A database that represents a ledger. -/
structure StoreDb where
  db : Db
  represents : ∃ L, Represents (entriesOf db) L

namespace StoreDb

def empty : StoreDb where
  db := .empty
  represents := ⟨.empty, represents_empty⟩

/-- Execute a request. -/
def run (store : StoreDb) (request : RedisRequest) : Reply × StoreDb :=
  ((request.run store.db).1,
    { db := (request.run store.db).2
      represents := by
        obtain ⟨L, hL⟩ := store.represents
        exact ⟨L.after request, hL.after request⟩ })

/-- The ledger the database represents. -/
noncomputable def ledger (store : StoreDb) : Ledger :=
  store.represents.choose

theorem represents_ledger (store : StoreDb) :
    Represents (entriesOf store.db) store.ledger :=
  store.represents.choose_spec

theorem ledger_eq {store : StoreDb} {L : Ledger}
    (h : Represents (entriesOf store.db) L) : store.ledger = L :=
  store.represents_ledger.unique h

@[simp] theorem ledger_empty : empty.ledger = .empty :=
  ledger_eq represents_empty

/-- Executing a request has its effect on the ledger. -/
@[simp] theorem ledger_run (store : StoreDb) (request : RedisRequest) :
    (store.run request).2.ledger = store.ledger.after request :=
  ledger_eq (store.represents_ledger.after request)

end StoreDb

end ReliableDelivery
