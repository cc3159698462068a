import ReliableDelivery.Store.Sequence
import ReliableDelivery.Support.RedisFootprint

/-!
# The key space of the store

The helpers give different entries different keys, and the scripts, which build keys
from what they have read, arrive at the keys of the helpers.  So the flat key space
of Redis serves the store as one map for each kind of entry.
-/

namespace ReliableDelivery

open Decimal Redis TransitionSystem

/-! ## What the scripts put behind a prefix -/

section Stored

variable {db : Db} {L : Ledger}

/-- The receiver that a script finds in a message hash. -/
theorem hget_toUid (h : Represents (entriesOf db) L) {id : UInt64}
    {toUid : Option Bytes} {db₁ : Db}
    (hrun : (hget (makeMessageKey id) (literal "to_uid")).run db =
      (.ok toUid, db₁)) :
    toUid = (L.find id).map fun m => toText m.toUid := by
  cases hm : L.find id with
  | none =>
      have hkey : hashAt (db (makeMessageKey id)) = some fun _ => none := by
        have hnone : db (makeMessageKey id) = none := h.noMessage id hm
        rw [hnone]
        rfl
      rw [hget_run hkey, Prod.mk.injEq, Except.ok.injEq] at hrun
      exact hrun.1.symm
  | some m =>
      obtain ⟨fields, hmessage, hfields⟩ := h.message id m hm
      have hkey : hashAt (db (makeMessageKey id)) = some fields := by
        have hsome : db (makeMessageKey id) = some (.hash fields) := hmessage
        rw [hsome]
        rfl
      rw [hget_run hkey, Prod.mk.injEq, Except.ok.injEq] at hrun
      rw [← hrun.1, field_toUid hfields, Option.map_some]

/-- The message id that the create script finds under an idempotency key. -/
theorem get_idempotency (h : Represents (entriesOf db) L) {fromUid : UInt64}
    {clientMsgId text : Bytes} {db₁ : Db}
    (hrun : (get (makeIdempotencyKey fromUid clientMsgId)).run db =
      (.ok (some text), db₁)) :
    ∃ id m, L.find id = some m ∧ m.clientKey = (fromUid, clientMsgId) ∧
      text = toText id := by
  by_cases htaken : L.Taken (fromUid, clientMsgId)
  · obtain ⟨id, m, hm, hkey⟩ := htaken
    obtain ⟨rfl, rfl⟩ := Prod.mk.injEq .. ▸ hkey
    have hsome : db (makeIdempotencyKey m.fromUid m.clientMsgId) =
        some (.string (toText id)) := h.idempotency id m hm
    have hstring : stringAt (db (makeIdempotencyKey m.fromUid m.clientMsgId)) =
        some (some (toText id)) := by
      rw [hsome, stringAt_string]
    rw [get_run hstring, Prod.mk.injEq, Except.ok.injEq, Option.some.injEq] at hrun
    exact ⟨id, m, hm, rfl, hrun.1.symm⟩
  · have hnone : db (makeIdempotencyKey fromUid clientMsgId) = none :=
      h.noIdempotency fromUid clientMsgId htaken
    have hstring : stringAt (db (makeIdempotencyKey fromUid clientMsgId)) =
        some none := by
      rw [hnone]
      rfl
    rw [get_run hstring, Prod.mk.injEq, Except.ok.injEq] at hrun
    cases hrun.1

/-- The message id that the create script allots. -/
theorem incr_nextId (h : Represents (entriesOf db) L) {n : ℤ} {db₁ : Db}
    (hrun : (incr kRedisMsgNextIdKey).run db = (.ok n, db₁)) :
    n = L.nextId.toNat := by
  obtain ⟨text, hnextId, htext⟩ := h.nextId
  have hstring : stringAt (db kRedisMsgNextIdKey) = some text := hnextId
  by_cases hroom : (L.count : ℤ) + 1 ≤ integerMax
  · rw [incr_run hstring htext hroom, Prod.mk.injEq, Except.ok.injEq] at hrun
    rw [← hrun.1, L.nextId_toNat]
  · have hfits : (L.count : ℤ) ≤ integerMax := by
      have hcount := L.countFits
      rw [integerMax]
      omega
    rw [incr_overflow hstring htext hfits hroom, Prod.mk.injEq] at hrun
    cases hrun.1

end Stored

/-! ## The entries of a request -/

/-- The entries that a request reads or writes. -/
def RedisRequest.entries (L : Ledger) : RedisRequest → Set StoreKey
  | .evalCreateMessage fromUid toUid _ clientMsgId _ =>
      {.idempotency fromUid clientMsgId, .nextId, .pending toUid,
        .recent fromUid, .recent toUid, .message L.nextId} ∪
      {k | ∃ id m, L.find id = some m ∧ m.clientKey = (fromUid, clientMsgId) ∧
        k = .message id}
  | .evalMsgStateScript _ msgId _ =>
      {.message msgId, .deliveredTimeout} ∪
      {k | ∃ m, L.find msgId = some m ∧ k = .pending m.toUid}
  | .evalMarkAckedScript msgId _ _ =>
      {.message msgId, .deliveredTimeout} ∪
      {k | ∃ m, L.find msgId = some m ∧ k = .pending m.toUid}
  | .evalIncrementRetryScript msgId => {.message msgId}
  | .hmgetRecord msgId => {.message msgId}
  | .zrangePending uid => {.pending uid}
  | .zrevrangeRecent uid _ => {.recent uid}
  | .zrangebyscoreTimeout _ => {.deliveredTimeout}

section Requests

variable {db : Db} {L : Ledger} {keys : Set Bytes}

/-- The part of a state script behind the look at the receiver: the hash, the timeout
index and the pending index of the receiver. -/
theorem touchesOnly_afterToUid {msgId : UInt64} {f : Option Bytes → Script Reply}
    (h : Represents (entriesOf db) L)
    (hmessage : makeMessageKey msgId ∈ keys)
    (hnone : ∀ db₁, (f none).TouchesOnly keys db₁)
    (hsome : ∀ m, L.find msgId = some m → ∀ db₁,
      (f (some (toText m.toUid))).TouchesOnly keys db₁) :
    (hget (makeMessageKey msgId) (literal "to_uid") >>= f).TouchesOnly
      keys db := by
  apply ((atKey_hget _ _).touchesOnly hmessage).bind
  intro toUid db₁ hrun
  rw [hget_toUid h hrun]
  cases hm : L.find msgId with
  | none => exact hnone db₁
  | some m => exact hsome m hm db₁

/-- A state script touches its message, the timeout index and the pending index of
the receiver. -/
theorem touchesOnly_msgState (h : Represents (entriesOf db) L)
    (script : MsgStateScript) (msgId now : UInt64) :
    (RedisRequest.evalMsgStateScript script msgId now).script.TouchesOnly
      (StoreKey.text '' (RedisRequest.evalMsgStateScript script msgId
        now).entries L) db := by
  set keys := StoreKey.text '' (RedisRequest.evalMsgStateScript script msgId
    now).entries L with hkeys
  have hmessage : makeMessageKey msgId ∈ keys :=
    ⟨.message msgId, by simp [RedisRequest.entries], rfl⟩
  have htimeout : kRedisDeliveredTimeoutKey ∈ keys :=
    ⟨.deliveredTimeout, by simp [RedisRequest.entries], rfl⟩
  have hpending : ∀ m, L.find msgId = some m →
      kRedisPendingKeyPrefix ++ toText m.toUid ∈ keys :=
    fun m hm => ⟨.pending m.toUid, .inr ⟨m, hm, rfl⟩, rfl⟩
  cases script with
  | markDelivered =>
      apply touchesOnly_afterToUid h hmessage
      · exact fun _ => Script.touchesOnly_pure _
      · intro m hm db₁
        apply ((atKey_hset _ _).touchesOnly hmessage).andThen
        intro _ db₂
        apply ((atKey_zrem _ _).touchesOnly (hpending m hm)).andThen
        intro _ db₃
        apply ((atKey_zadd _ _ _).touchesOnly htimeout).andThen
        exact fun _ _ => Script.touchesOnly_pure _
  | markPending =>
      apply touchesOnly_afterToUid h hmessage
      · exact fun _ => Script.touchesOnly_pure _
      · intro m hm db₁
        apply ((atKey_hget _ _).touchesOnly hmessage).andThen
        intro created db₂
        apply ((atKey_hset _ _).touchesOnly hmessage).andThen
        intro _ db₃
        apply ((atKey_zrem _ _).touchesOnly htimeout).andThen
        intro _ db₄
        apply ((atKey_zadd _ _ _).touchesOnly (hpending m hm)).andThen
        exact fun _ _ => Script.touchesOnly_pure _
  | markFailed =>
      apply touchesOnly_afterToUid h hmessage
      · exact fun _ => Script.touchesOnly_pure _
      · intro m hm db₁
        apply ((atKey_hset _ _).touchesOnly hmessage).andThen
        intro _ db₂
        apply ((atKey_zrem _ _).touchesOnly htimeout).andThen
        intro _ db₃
        apply ((atKey_zrem _ _).touchesOnly (hpending m hm)).andThen
        exact fun _ _ => Script.touchesOnly_pure _

theorem touchesOnly_markAcked (h : Represents (entriesOf db) L)
    (msgId ackUid now : UInt64) :
    (RedisRequest.evalMarkAckedScript msgId ackUid now).script.TouchesOnly
      (StoreKey.text '' (RedisRequest.evalMarkAckedScript msgId ackUid
        now).entries L) db := by
  set keys := StoreKey.text '' (RedisRequest.evalMarkAckedScript msgId ackUid
    now).entries L with hkeys
  have hmessage : makeMessageKey msgId ∈ keys :=
    ⟨.message msgId, by simp [RedisRequest.entries], rfl⟩
  have htimeout : kRedisDeliveredTimeoutKey ∈ keys :=
    ⟨.deliveredTimeout, by simp [RedisRequest.entries], rfl⟩
  apply touchesOnly_afterToUid h hmessage
  · exact fun _ => Script.touchesOnly_pure _
  · intro m hm db₁
    have hpending : kRedisPendingKeyPrefix ++ toText m.toUid ∈ keys :=
      ⟨.pending m.toUid, .inr ⟨m, hm, rfl⟩, rfl⟩
    dsimp only
    split
    · exact Script.touchesOnly_pure _
    · apply ((atKey_hset _ _).touchesOnly hmessage).andThen
      intro _ db₂
      apply ((atKey_zrem _ _).touchesOnly htimeout).andThen
      intro _ db₃
      apply ((atKey_zrem _ _).touchesOnly hpending).andThen
      exact fun _ _ => Script.touchesOnly_pure _

/-- The create script touches the entry of the client message id, the counter, the
indexes of both users, and the message that exists or is created. -/
theorem touchesOnly_create (h : Represents (entriesOf db) L)
    (fromUid toUid : UInt64) (content clientMsgId : Bytes) (now : UInt64) :
    (RedisRequest.evalCreateMessage fromUid toUid content clientMsgId
      now).script.TouchesOnly (StoreKey.text '' (RedisRequest.evalCreateMessage
        fromUid toUid content clientMsgId now).entries L) db := by
  set keys := StoreKey.text '' (RedisRequest.evalCreateMessage fromUid toUid
    content clientMsgId now).entries L with hkeys
  have hidem : makeIdempotencyKey fromUid clientMsgId ∈ keys :=
    ⟨.idempotency fromUid clientMsgId, by simp [RedisRequest.entries], rfl⟩
  have hnextId : kRedisMsgNextIdKey ∈ keys :=
    ⟨.nextId, by simp [RedisRequest.entries], rfl⟩
  have hpending : makePendingKey toUid ∈ keys :=
    ⟨.pending toUid, by simp [RedisRequest.entries], rfl⟩
  have hfrom : makeRecentKey fromUid ∈ keys :=
    ⟨.recent fromUid, by simp [RedisRequest.entries], rfl⟩
  have hto : makeRecentKey toUid ∈ keys :=
    ⟨.recent toUid, by simp [RedisRequest.entries], rfl⟩
  have hnew : kRedisMsgKeyPrefix ++ toText L.nextId ∈ keys :=
    ⟨.message L.nextId, by simp [RedisRequest.entries], rfl⟩
  have hknown : ∀ id m, L.find id = some m →
      m.clientKey = (fromUid, clientMsgId) →
        kRedisMsgKeyPrefix ++ toText id ∈ keys :=
    fun id m hm hkey => ⟨.message id, .inr ⟨id, m, hm, hkey, rfl⟩, rfl⟩
  let atKeys := luaAt [makeIdempotencyKey fromUid clientMsgId,
    kRedisMsgNextIdKey, makePendingKey toUid, makeRecentKey fromUid,
    makeRecentKey toUid]
  let atArgv := luaAt [kRedisMsgKeyPrefix, toText fromUid, toText toUid, content,
    clientMsgId, toText now]
  have hcreate : (createNewMessage atKeys atArgv).TouchesOnly keys db := by
    apply ((atKey_incr _).touchesOnly hnextId).bind
    intro n db₁ hrun
    have hmessage : atArgv 1 ++ renderInteger n ∈ keys := by
      rw [incr_nextId h hrun]
      exact hnew
    apply ((atKey_set _ _).touchesOnly hidem).andThen
    intro _ db₂
    apply ((atKey_hset _ _).touchesOnly hmessage).andThen
    intro _ db₃
    apply ((atKey_zadd _ _ _).touchesOnly hpending).andThen
    intro _ db₄
    apply ((atKey_zadd _ _ _).touchesOnly hfrom).andThen
    intro _ db₅
    apply ((atKey_zadd _ _ _).touchesOnly hto).andThen
    exact fun _ _ => Script.touchesOnly_pure _
  apply ((atKey_get _).touchesOnly hidem).bind
  intro text db₁ hrun
  have hdb : db₁ = db := by
    have hread := get_db (makeIdempotencyKey fromUid clientMsgId) db
    rw [← hread]
    exact (congrArg Prod.snd hrun).symm
  subst hdb
  cases text with
  | none => exact hcreate
  | some text =>
      obtain ⟨id, m, hm, hkey, rfl⟩ := get_idempotency h hrun
      have hmessage := hknown id m hm hkey
      apply ((atKey_exists _).touchesOnly hmessage).bind
      intro found db₂ hfound
      have hsame : db₂ = db₁ := by
        cases hfound
        rfl
      subst hsame
      cases found with
      | false => exact hcreate
      | true =>
          apply ((atKey_hmget _ _).touchesOnly hmessage).andThen
          exact fun _ _ => Script.touchesOnly_pure _

theorem text_mem (k : StoreKey) : k.text ∈ StoreKey.text '' {k} :=
  Set.mem_image_of_mem _ rfl

/-- Every request keeps to its entries. -/
theorem touchesOnly_request (h : Represents (entriesOf db) L)
    (request : RedisRequest) :
    request.script.TouchesOnly (StoreKey.text '' request.entries L) db := by
  cases request with
  | evalCreateMessage fromUid toUid content clientMsgId now =>
      exact touchesOnly_create h fromUid toUid content clientMsgId now
  | evalMsgStateScript script msgId now =>
      exact touchesOnly_msgState h script msgId now
  | evalMarkAckedScript msgId ackUid now =>
      exact touchesOnly_markAcked h msgId ackUid now
  | evalIncrementRetryScript msgId =>
      have hmessage := text_mem (.message msgId)
      apply ((atKey_exists _).touchesOnly hmessage).andThen
      intro found db₁
      cases found with
      | false => exact Script.touchesOnly_pure _
      | true =>
          apply ((atKey_hincrby _ _ _).touchesOnly hmessage).andThen
          exact fun _ _ => Script.touchesOnly_pure _
  | hmgetRecord msgId =>
      apply ((atKey_hmget _ _).touchesOnly (text_mem (.message msgId))).andThen
      exact fun _ _ => Script.touchesOnly_pure _
  | zrangePending uid =>
      apply ((atKey_zentries _).touchesOnly (text_mem (.pending uid))).andThen
      exact fun _ _ => Script.touchesOnly_pure _
  | zrevrangeRecent uid stop =>
      show Script.TouchesOnly _ (zrevrange (makeRecentKey uid) stop) db
      rw [zrevrange]
      split
      · apply ((atKey_zentries _).touchesOnly (text_mem (.recent uid))).andThen
        exact fun _ _ => Script.touchesOnly_pure _
      · exact Script.touchesOnly_fail _
  | zrangebyscoreTimeout maxScore =>
      apply ((atKey_zentries _).touchesOnly (text_mem .deliveredTimeout)).andThen
      exact fun _ _ => Script.touchesOnly_pure _

end Requests

/-! ## Separate maps -/

theorem eval_snd (p : Script Reply) (db : Db) : (eval p db).2 = (p.run db).2 := by
  rcases hrun : p.run db with ⟨result, db₁⟩
  cases result with
  | ok reply => rw [eval_ok hrun]
  | error e => rw [eval_error hrun]

theorem eval_fst {p : Script Reply} {db db' : Db}
    (h : (p.run db').1 = (p.run db).1) : (eval p db').1 = (eval p db).1 := by
  rcases hrun : p.run db with ⟨result, db₁⟩
  rcases hrun' : p.run db' with ⟨result', db₁'⟩
  rw [hrun, hrun'] at h
  dsimp only at h
  subst h
  cases result' with
  | ok reply => rw [eval_ok hrun, eval_ok hrun']
  | error e => rw [eval_error hrun, eval_error hrun']

/-- A request is a matter of the entries, and leaves all other keys alone. -/
theorem run_entries {db db' : Db} {L : Ledger} (h : Represents (entriesOf db) L)
    (request : RedisRequest) (hsame : entriesOf db' = entriesOf db) :
    (request.run db').1 = (request.run db).1 ∧
      entriesOf (request.run db').2 = entriesOf (request.run db).2 ∧
      ∀ key, (∀ k : StoreKey, key ≠ k.text) →
        (request.run db').2 key = db' key := by
  have htouches := touchesOnly_request h request
  have hagree : ∀ key ∈ StoreKey.text '' request.entries L, db' key = db key := by
    rintro _ ⟨k, -, rfl⟩
    exact congrFun hsame k
  obtain ⟨hresult, hkeys, hframe⟩ := htouches db' hagree
  obtain ⟨-, -, hframe'⟩ := htouches db fun _ _ => rfl
  refine ⟨eval_fst hresult, ?_, ?_⟩
  · funext k
    rw [entriesOf, entriesOf, RedisRequest.run, RedisRequest.run, eval_snd, eval_snd]
    by_cases hk : k.text ∈ StoreKey.text '' request.entries L
    · exact hkeys _ hk
    · rw [hframe _ hk, hframe' _ hk]
      exact congrFun hsame k
  · intro key hkey
    rw [RedisRequest.run, eval_snd]
    apply hframe
    rintro ⟨k, -, heq⟩
    exact hkey k heq.symm

/-- The keys of the store.  The helpers are injective and their keys are of different
kinds; what the scripts put behind the prefixes is the numeral of an id, so that they
build the keys of the helpers; and every request works on the entries as if each kind
were a map of its own, and on nothing else. -/
theorem key_spaces :
    (Function.Injective makeMessageKey ∧ Function.Injective makePendingKey ∧
      Function.Injective makeRecentKey ∧
      Function.Injective fun p : UInt64 × Bytes => makeIdempotencyKey p.1 p.2) ∧
    (∀ msgId uid uid' fromUid clientMsgId,
      [makeMessageKey msgId, makePendingKey uid, makeRecentKey uid',
        makeIdempotencyKey fromUid clientMsgId, kRedisMsgNextIdKey,
        kRedisDeliveredTimeoutKey].Nodup) ∧
    ∀ e : storeRuns.Execution,
      (∀ msgId toUid,
        fieldOf e.state (makeMessageKey msgId) (literal "to_uid") = some toUid →
          ∃ uid, toUid = toText uid ∧
            kRedisPendingKeyPrefix ++ toUid = makePendingKey uid) ∧
      (∀ fromUid clientMsgId text,
        Redis.textOf e.state (makeIdempotencyKey fromUid clientMsgId) = some text →
          ∃ msgId, text = toText msgId ∧
            kRedisMsgKeyPrefix ++ text = makeMessageKey msgId) ∧
      (∀ n db', (incr kRedisMsgNextIdKey).run e.state = (.ok n, db') →
        ∃ msgId : UInt64, n = msgId.toNat ∧
          kRedisMsgKeyPrefix ++ renderInteger n = makeMessageKey msgId) ∧
      ∀ (request : RedisRequest) db', entriesOf db' = entriesOf e.state →
        (request.run db').1 = (request.run e.state).1 ∧
          entriesOf (request.run db').2 = entriesOf (request.run e.state).2 ∧
          ∀ key, (∀ k : StoreKey, key ≠ k.text) →
            (request.run db').2 key = db' key := by
  refine ⟨⟨?_, ?_, ?_, ?_⟩, ?_, ?_⟩
  · intro msgId msgId' heq
    exact toText_injective (List.append_cancel_left heq)
  · intro uid uid' heq
    exact toText_injective (List.append_cancel_left heq)
  · intro uid uid' heq
    exact toText_injective (List.append_cancel_left heq)
  · rintro ⟨fromUid, clientMsgId⟩ ⟨fromUid', clientMsgId'⟩ heq
    obtain ⟨rfl, rfl⟩ := makeClientMsgKey_inj.mp (List.append_cancel_left heq)
    rfl
  · intro msgId uid uid' fromUid clientMsgId
    have hkinds : [StoreKey.message msgId, .pending uid, .recent uid',
        .idempotency fromUid clientMsgId, .nextId, .deliveredTimeout].Nodup := by
      simp
    exact hkinds.map StoreKey.text_injective
  · intro e
    obtain ⟨L, hexplains⟩ := exists_explains e
    have hrepresents := hexplains.represents
    refine ⟨?_, ?_, ?_, fun request db' => run_entries hrepresents request⟩
    · intro msgId toUid hfield
      obtain ⟨fields, hfields, htoUid⟩ := Option.bind_eq_some_iff.mp hfield
      have hfound := hget_toUid hrepresents (hget_run hfields)
      rw [htoUid] at hfound
      obtain ⟨m, -, rfl⟩ := Option.map_eq_some_iff.mp hfound.symm
      exact ⟨m.toUid, rfl, pendingKeyPrefix_append m.toUid⟩
    · intro fromUid clientMsgId text htext
      have hstring := Option.join_eq_some_iff.mp htext
      obtain ⟨msgId, m, -, -, rfl⟩ :=
        get_idempotency hrepresents (get_run hstring)
      exact ⟨msgId, rfl, msgKeyPrefix_append msgId⟩
    · intro n db' hincr
      have hn := incr_nextId hrepresents hincr
      refine ⟨L.nextId, hn, ?_⟩
      rw [hn, renderInteger_natCast]
      exact msgKeyPrefix_append L.nextId

end ReliableDelivery
