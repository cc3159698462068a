import ReliableDelivery.Store.Representation
import ReliableDelivery.Store.MessageStore

/-!
# The scripts refine the ledger

Run on a database that represents a ledger, every request answers from that
ledger and leaves a database that represents `Ledger.after`.
-/

namespace ReliableDelivery

open Decimal Redis

/-! ## Fields of a message hash -/

theorem field_toUid {fields : Fields} {m : Message} {id : UInt64}
    (h : recordFields.map fields = m.texts id) :
    fields (literal "to_uid") = some (toText m.toUid) := by
  simp only [recordFields, Message.texts, List.map_cons, List.cons.injEq] at h
  exact h.2.2.1

theorem field_createdAtMs {fields : Fields} {m : Message} {id : UInt64}
    (h : recordFields.map fields = m.texts id) :
    fields (literal "created_at_ms") = some (toText m.createdAtMs) := by
  simp only [recordFields, Message.texts, List.map_cons, List.cons.injEq] at h
  exact h.2.2.2.2.2.2.1

theorem field_retryCount {fields : Fields} {m : Message} {id : UInt64}
    (h : recordFields.map fields = m.texts id) :
    fields (literal "retry_count") = some (render m.retryCount) := by
  simp only [recordFields, Message.texts, List.map_cons, List.cons.injEq] at h
  exact h.2.2.2.2.2.2.2.2.2.1

/-- The record read back from the stored fields of a message. -/
theorem buildRecord_texts {m : Message} {id : UInt64} {head : List Reply}
    {offset : ℕ} (hhead : head.length = offset) (hretry : m.retryCount < 2 ^ 63) :
    buildRecordFromFields (.array (head ++ (m.texts id).map replyOfField))
      offset = some (m.record id) := by
  have hdrop : (head ++ (m.texts id).map replyOfField).drop offset =
      (m.texts id).map replyOfField := by
    rw [← hhead, List.drop_left]
  simp only [buildRecordFromFields, hdrop]
  simp [Message.texts, replyOfField, replyToString, Message.record,
    parseInt_render hretry]

/-! ## State scripts -/

section StateScripts

variable {db : Db} {id : UInt64} {fields : Fields} {m : Message}
  {pendingSet timeoutSet : ZSet}

/-- The database after a state script: hash, pending index, timeout index. -/
def writeMessage (db : Db) (id toUid : UInt64) (fields : Fields)
    (pendingValue timeoutValue : Option Value) : Db :=
  Function.update
    (Function.update
      (Function.update db (makeMessageKey id) (some (.hash fields)))
      (makePendingKey toUid) pendingValue)
    kRedisDeliveredTimeoutKey timeoutValue

theorem entriesOf_writeMessage (db : Db) (id toUid : UInt64) (fields : Fields)
    (pendingValue timeoutValue : Option Value) :
    entriesOf (writeMessage db id toUid fields pendingValue timeoutValue) =
      Function.update
        (Function.update
          (Function.update (entriesOf db) (.message id) (some (.hash fields)))
          (.pending toUid) pendingValue)
        .deliveredTimeout timeoutValue := by
  rw [← entriesOf_update, ← entriesOf_update, ← entriesOf_update]
  rfl

theorem pendingKey_ne_messageKey (uid id : UInt64) :
    makePendingKey uid ≠ makeMessageKey id := by
  have h : (StoreKey.pending uid).text ≠ (StoreKey.message id).text := by simp
  exact h

theorem timeoutKey_ne_messageKey (id : UInt64) :
    kRedisDeliveredTimeoutKey ≠ makeMessageKey id := by
  have h : StoreKey.deliveredTimeout.text ≠ (StoreKey.message id).text := by simp
  exact h

theorem timeoutKey_ne_pendingKey (uid : UInt64) :
    kRedisDeliveredTimeoutKey ≠ makePendingKey uid := by
  have h : StoreKey.deliveredTimeout.text ≠ (StoreKey.pending uid).text := by simp
  exact h

theorem updated_pending {v : Option Value} {toUid : UInt64}
    (hpending : zsetAt (db (makePendingKey toUid)) = some pendingSet) :
    zsetAt (Function.update db (makeMessageKey id) v (makePendingKey toUid)) =
      some pendingSet := by
  rw [Function.update_of_ne (pendingKey_ne_messageKey _ _), hpending]

theorem updated_timeout {v : Option Value}
    (htimeout : zsetAt (db kRedisDeliveredTimeoutKey) = some timeoutSet) :
    zsetAt (Function.update db (makeMessageKey id) v
      kRedisDeliveredTimeoutKey) = some timeoutSet := by
  rw [Function.update_of_ne (timeoutKey_ne_messageKey _), htimeout]

theorem markDelivered_run {now toUid : UInt64}
    (hhash : hashAt (db (makeMessageKey id)) = some fields)
    (hto : fields (literal "to_uid") = some (toText toUid))
    (hpending : zsetAt (db (makePendingKey toUid)) = some pendingSet)
    (htimeout : zsetAt (db kRedisDeliveredTimeoutKey) = some timeoutSet) :
    (RedisRequest.evalMsgStateScript .markDelivered id now).run db =
      (.integer 1, writeMessage db id toUid
        (setFields fields
          [(literal "status", literal "Delivered"),
            (literal "delivered_at_ms", toText now)])
        (zsetValue (pendingSet.erase (toText id)))
        (some (.zset (timeoutSet.insert now.toNat (toText id))))) := by
  apply eval_ok
  simp only [RedisRequest.script, MsgStateScript.body, kMarkDeliveredScript,
    luaAt_one, luaAt_succ, Nat.reduceAdd]
  rw [Script.bind_ok (hget_run hhash), hto]
  simp only [pendingKeyPrefix_append]
  rw [Script.bind_ok (hset_run hhash),
    Script.bind_ok (zrem_run (updated_pending hpending)), toText,
    Script.bind_ok (zadd_run (z := timeoutSet) ?_)]
  · rfl
  · rw [Function.update_of_ne (timeoutKey_ne_pendingKey _),
      updated_timeout htimeout]

theorem markPending_run {now toUid createdAtMs : UInt64}
    (hhash : hashAt (db (makeMessageKey id)) = some fields)
    (hto : fields (literal "to_uid") = some (toText toUid))
    (hcreated : fields (literal "created_at_ms") = some (toText createdAtMs))
    (hpending : zsetAt (db (makePendingKey toUid)) = some pendingSet)
    (htimeout : zsetAt (db kRedisDeliveredTimeoutKey) = some timeoutSet) :
    (RedisRequest.evalMsgStateScript .markPending id now).run db =
      (.integer 1, writeMessage db id toUid
        (setFields fields [(literal "status", literal "Pending")])
        (some (.zset (pendingSet.insert createdAtMs.toNat (toText id))))
        (zsetValue (timeoutSet.erase (toText id)))) := by
  apply eval_ok
  simp only [RedisRequest.script, MsgStateScript.body, kMarkPendingScript,
    luaAt_one, luaAt_succ, Nat.reduceAdd]
  rw [Script.bind_ok (hget_run hhash), hto]
  simp only [pendingKeyPrefix_append]
  rw [Script.bind_ok (hget_run hhash), hcreated, Option.getD_some,
    Script.bind_ok (hset_run hhash),
    Script.bind_ok (zrem_run (updated_timeout htimeout)), toText,
    Script.bind_ok (zadd_run (z := pendingSet) ?_)]
  · rw [writeMessage, Function.update_comm (timeoutKey_ne_pendingKey toUid)]
    rfl
  · rw [Function.update_of_ne (timeoutKey_ne_pendingKey _).symm,
      updated_pending hpending]

theorem markFailed_run {now toUid : UInt64}
    (hhash : hashAt (db (makeMessageKey id)) = some fields)
    (hto : fields (literal "to_uid") = some (toText toUid))
    (hpending : zsetAt (db (makePendingKey toUid)) = some pendingSet)
    (htimeout : zsetAt (db kRedisDeliveredTimeoutKey) = some timeoutSet) :
    (RedisRequest.evalMsgStateScript .markFailed id now).run db =
      (.integer 1, writeMessage db id toUid
        (setFields fields [(literal "status", literal "Failed")])
        (zsetValue (pendingSet.erase (toText id)))
        (zsetValue (timeoutSet.erase (toText id)))) := by
  apply eval_ok
  simp only [RedisRequest.script, MsgStateScript.body, kMarkFailedScript,
    luaAt_one, luaAt_succ, Nat.reduceAdd]
  rw [Script.bind_ok (hget_run hhash), hto]
  simp only [pendingKeyPrefix_append]
  rw [Script.bind_ok (hset_run hhash),
    Script.bind_ok (zrem_run (updated_timeout htimeout)),
    Script.bind_ok (zrem_run (z := pendingSet) ?_)]
  · rw [writeMessage, Function.update_comm (timeoutKey_ne_pendingKey toUid)]
    rfl
  · rw [Function.update_of_ne (timeoutKey_ne_pendingKey _).symm,
      updated_pending hpending]

theorem markAcked_run {now toUid : UInt64}
    (hhash : hashAt (db (makeMessageKey id)) = some fields)
    (hto : fields (literal "to_uid") = some (toText toUid))
    (hpending : zsetAt (db (makePendingKey toUid)) = some pendingSet)
    (htimeout : zsetAt (db kRedisDeliveredTimeoutKey) = some timeoutSet) :
    (RedisRequest.evalMarkAckedScript id toUid now).run db =
      (.integer 1, writeMessage db id toUid
        (setFields fields
          [(literal "status", literal "Acked"),
            (literal "acked_at_ms", toText now)])
        (zsetValue (pendingSet.erase (toText id)))
        (zsetValue (timeoutSet.erase (toText id)))) := by
  apply eval_ok
  simp only [RedisRequest.script, kMarkAckedScript, luaAt_one, luaAt_succ,
    Nat.reduceAdd]
  rw [Script.bind_ok (hget_run hhash), hto]
  simp only [pendingKeyPrefix_append, ne_eq, not_true_eq_false, if_false]
  rw [Script.bind_ok (hset_run hhash),
    Script.bind_ok (zrem_run (updated_timeout htimeout)),
    Script.bind_ok (zrem_run (z := pendingSet) ?_)]
  · rw [writeMessage, Function.update_comm (timeoutKey_ne_pendingKey toUid)]
    rfl
  · rw [Function.update_of_ne (timeoutKey_ne_pendingKey _).symm,
      updated_pending hpending]

/-- An acknowledgement from anyone but the receiver is refused. -/
theorem markAcked_refused {now toUid ackUid : UInt64}
    (hhash : hashAt (db (makeMessageKey id)) = some fields)
    (hto : fields (literal "to_uid") = some (toText toUid))
    (hne : toUid ≠ ackUid) :
    (RedisRequest.evalMarkAckedScript id ackUid now).run db =
      (.integer 0, db) := by
  apply eval_ok
  simp only [RedisRequest.script, kMarkAckedScript, luaAt_one, luaAt_succ,
    Nat.reduceAdd]
  rw [Script.bind_ok (hget_run hhash), hto]
  have hrefused : toText toUid ≠ toText ackUid := by simpa using hne
  simp only [hrefused, ne_eq, not_false_eq_true, if_true, Script.pure_run]

/-- A state script on an unknown message does nothing. -/
theorem msgState_absent {script : MsgStateScript} {now : UInt64}
    (habsent : db (makeMessageKey id) = none) :
    (RedisRequest.evalMsgStateScript script id now).run db =
      (.integer 0, db) := by
  have hhash : hashAt (db (makeMessageKey id)) = some fun _ => none := by
    rw [habsent]
    rfl
  apply eval_ok
  cases script with
  | markDelivered =>
      simp only [RedisRequest.script, MsgStateScript.body,
        kMarkDeliveredScript, luaAt_one]
      rw [Script.bind_ok (hget_run hhash)]
      rfl
  | markPending =>
      simp only [RedisRequest.script, MsgStateScript.body,
        kMarkPendingScript, luaAt_one]
      rw [Script.bind_ok (hget_run hhash)]
      rfl
  | markFailed =>
      simp only [RedisRequest.script, MsgStateScript.body,
        kMarkFailedScript, luaAt_one]
      rw [Script.bind_ok (hget_run hhash)]
      rfl

theorem markAcked_absent {ackUid now : UInt64}
    (habsent : db (makeMessageKey id) = none) :
    (RedisRequest.evalMarkAckedScript id ackUid now).run db =
      (.integer 0, db) := by
  have hhash : hashAt (db (makeMessageKey id)) = some fun _ => none := by
    rw [habsent]
    rfl
  apply eval_ok
  simp only [RedisRequest.script, kMarkAckedScript, luaAt_one]
  rw [Script.bind_ok (hget_run hhash)]
  rfl

theorem incrementRetry_absent (habsent : db (makeMessageKey id) = none) :
    (RedisRequest.evalIncrementRetryScript id).run db = (.integer 0, db) := by
  apply eval_ok
  have hexists : (exists? (makeMessageKey id)).run db = (.ok false, db) := by
    simp [exists?, habsent]
  simp only [RedisRequest.script, kIncrementRetryScript, luaAt_one]
  rw [Script.bind_ok hexists]
  rfl

theorem incrementRetry_run {n : ℕ}
    (hhash : db (makeMessageKey id) = some (.hash fields))
    (hretry : fields (literal "retry_count") = some (render n))
    (hn : n + 1 < 2 ^ 63) :
    (RedisRequest.evalIncrementRetryScript id).run db =
      (.integer 1, Function.update db (makeMessageKey id) (some (.hash
        (setFields fields [(literal "retry_count", render (n + 1))])))) := by
  apply eval_ok
  have hexists : (exists? (makeMessageKey id)).run db = (.ok true, db) := by
    simp [exists?, hhash]
  have hroom : (n : ℤ) + 1 ≤ integerMax := by
    rw [integerMax]
    omega
  simp only [RedisRequest.script, kIncrementRetryScript, luaAt_one]
  rw [Script.bind_ok hexists]
  simp only [if_true]
  rw [Script.bind_ok (hincrby_one_run (by rw [hhash]; rfl) hretry hroom)]
  rfl

theorem incrementRetry_overflow {n : ℕ}
    (hhash : db (makeMessageKey id) = some (.hash fields))
    (hretry : fields (literal "retry_count") = some (render n))
    (hfits : n < 2 ^ 63) (hn : ¬n + 1 < 2 ^ 63) :
    (RedisRequest.evalIncrementRetryScript id).run db =
      (.error .overflow, db) := by
  apply eval_error
  have hexists : (exists? (makeMessageKey id)).run db = (.ok true, db) := by
    simp [exists?, hhash]
  have hle : (n : ℤ) ≤ integerMax := by
    rw [integerMax]
    omega
  have hfull : ¬(n : ℤ) + 1 ≤ integerMax := by
    rw [integerMax]
    omega
  simp only [RedisRequest.script, kIncrementRetryScript, luaAt_one]
  rw [Script.bind_ok hexists]
  simp only [if_true]
  rw [Script.bind_error
    (hincrby_one_overflow (by rw [hhash]; rfl) hretry hle hfull)]

end StateScripts

/-! ## The create script -/

section CreateScript

variable {db : Db} {L : Ledger} {fromUid toUid now : UInt64}
  {content clientMsgId : Bytes}

theorem update_text_of_ne {k k' : StoreKey} (db : Db) (v : Option Value)
    (h : k' ≠ k) : Function.update db k.text v k'.text = db k'.text :=
  Function.update_of_ne (fun heq => h (StoreKey.text_injective heq)) _ _

/-- The hash of a new message. -/
def newFields (msgId fromUid toUid : UInt64) (content clientMsgId : Bytes)
    (now : UInt64) : Fields :=
  setFields (fun _ => none)
    [(literal "msg_id", toText msgId),
      (literal "from_uid", toText fromUid),
      (literal "to_uid", toText toUid),
      (literal "content", content),
      (literal "client_msg_id", clientMsgId),
      (literal "status", literal "Pending"),
      (literal "created_at_ms", toText now),
      (literal "delivered_at_ms", literal "0"),
      (literal "acked_at_ms", literal "0"),
      (literal "retry_count", literal "0")]

/-- The database after the counter, the idempotency entry and the hash of a new
message have been written. -/
def writeNew (db : Db) (msgId fromUid toUid : UInt64)
    (content clientMsgId : Bytes) (now : UInt64) : Db :=
  Function.update
    (Function.update
      (Function.update db StoreKey.nextId.text (some (.string (toText msgId))))
      (StoreKey.idempotency fromUid clientMsgId).text
      (some (.string (toText msgId))))
    (StoreKey.message msgId).text
    (some (.hash (newFields msgId fromUid toUid content clientMsgId now)))

theorem recordFields_newFields (msgId : UInt64) :
    recordFields.map (newFields msgId fromUid toUid content clientMsgId now) =
      (Message.new fromUid toUid content clientMsgId now).texts msgId := by
  simp +decide [recordFields, newFields, setFields, Message.new,
    Message.texts, MessageStatus.text, toText]

/-- The reply of the create script for a new message. -/
def newReply (msgId fromUid toUid : UInt64) (content clientMsgId : Bytes)
    (now : UInt64) : Reply :=
  .array (.bulk (literal "1") ::
    ((Message.new fromUid toUid content clientMsgId now).texts msgId).map
      replyOfField)

theorem newReply_eq (msgId : UInt64) :
    newReply msgId fromUid toUid content clientMsgId now =
      .array
        [.bulk (literal "1"), .bulk (toText msgId), .bulk (toText fromUid),
          .bulk (toText toUid), .bulk content, .bulk clientMsgId,
          .bulk (literal "Pending"), .bulk (toText now), .bulk (literal "0"),
          .bulk (literal "0"), .bulk (literal "0")] := by
  have hzero : render 0 = literal "0" := by decide
  simp [newReply, Message.texts, Message.new, replyOfField, toText,
    MessageStatus.text, hzero]

theorem createNew_run {text : Option Bytes} {pendingSet fromSet toSet : ZSet}
    (hnextId : stringAt (db StoreKey.nextId.text) = some text)
    (htext : text.getD (render 0) = render L.count)
    (hroom : L.count + 1 < 2 ^ 63)
    (habsent : db (StoreKey.message L.nextId).text = none)
    (hpending : zsetAt (db (StoreKey.pending toUid).text) = some pendingSet)
    (hfrom : zsetAt (db (StoreKey.recent fromUid).text) = some fromSet)
    (hto : zsetAt (Function.update db (StoreKey.recent fromUid).text
      (some (.zset (fromSet.insert now.toNat (toText L.nextId))))
      (StoreKey.recent toUid).text) = some toSet) :
    (createNewMessage
        (luaAt [makeIdempotencyKey fromUid clientMsgId, kRedisMsgNextIdKey,
          makePendingKey toUid, makeRecentKey fromUid, makeRecentKey toUid])
        (luaAt [kRedisMsgKeyPrefix, toText fromUid, toText toUid, content,
          clientMsgId, toText now])).run db =
      (.ok (newReply L.nextId fromUid toUid content clientMsgId now),
        Function.update
          (Function.update
            (Function.update
              (writeNew db L.nextId fromUid toUid content clientMsgId now)
              (StoreKey.pending toUid).text
              (some (.zset (pendingSet.insert now.toNat (toText L.nextId)))))
            (StoreKey.recent fromUid).text
            (some (.zset (fromSet.insert now.toNat (toText L.nextId)))))
          (StoreKey.recent toUid).text
          (some (.zset (toSet.insert now.toNat (toText L.nextId))))) := by
  have hid : render (L.count + 1) = toText L.nextId := by
    rw [toText, L.nextId_toNat]
  have hlimit : (L.count : ℤ) + 1 ≤ integerMax := by
    rw [integerMax]
    omega
  have hhash : hashAt (Function.update
      (Function.update db StoreKey.nextId.text (some (.string (toText L.nextId))))
      (StoreKey.idempotency fromUid clientMsgId).text
      (some (.string (toText L.nextId))) (StoreKey.message L.nextId).text) =
        some fun _ => none := by
    rw [update_text_of_ne _ _ (by simp), update_text_of_ne _ _ (by simp),
      habsent]
    rfl
  have hbefore : ∀ k : StoreKey, k ≠ .nextId → k ≠ .idempotency fromUid clientMsgId →
      k ≠ .message L.nextId →
      writeNew db L.nextId fromUid toUid content clientMsgId now k.text =
        db k.text := by
    intro k h₁ h₂ h₃
    rw [writeNew, update_text_of_ne _ _ h₃, update_text_of_ne _ _ h₂,
      update_text_of_ne _ _ h₁]
  simp only [createNewMessage, luaAt_one, luaAt_succ, Nat.reduceAdd, text_nextId,
    text_pending, text_recent, text_idempotency]
  rw [Script.bind_ok (incr_run hnextId htext hlimit)]
  simp only [renderInteger_natCast, hid, msgKeyPrefix_append, text_message]
  rw [Script.bind_ok set_run, Script.bind_ok (hset_run hhash)]
  change (zadd _ (render now.toNat) _ >>= _).run
    (writeNew db L.nextId fromUid toUid content clientMsgId now) = _
  rw [Script.bind_ok (zadd_run (z := pendingSet) ?_)]
  · change (zadd _ (render now.toNat) _ >>= _).run _ = _
    rw [Script.bind_ok (zadd_run (z := fromSet) ?_)]
    · change (zadd _ (render now.toNat) _ >>= _).run _ = _
      rw [Script.bind_ok (zadd_run (z := toSet) ?_)]
      · rw [newReply_eq]
        rfl
      · rw [← hto]
        by_cases heq : toUid = fromUid
        · subst heq
          rw [Function.update_self, Function.update_self]
        · have hne : StoreKey.recent toUid ≠ .recent fromUid := by
            simpa using heq
          rw [update_text_of_ne _ _ hne, update_text_of_ne _ _ (by simp),
            update_text_of_ne _ _ hne,
            hbefore _ (by simp) (by simp) (by simp)]
    · rw [update_text_of_ne _ _ (by simp),
        hbefore _ (by simp) (by simp) (by simp), hfrom]
  · rw [hbefore _ (by simp) (by simp) (by simp), hpending]

/-- The idempotency key of a pair that is free holds nothing. -/
theorem stringAt_free (h : Represents (entriesOf db) L)
    (hfree : ¬L.Taken (fromUid, clientMsgId)) :
    stringAt (db (StoreKey.idempotency fromUid clientMsgId).text) =
      some none := by
  have hnone := h.noIdempotency fromUid clientMsgId hfree
  rw [entriesOf] at hnone
  rw [hnone]
  rfl

/-- A new message: the reply is its record and the database represents the
longer ledger. -/
theorem create_new (h : Represents (entriesOf db) L)
    (hfree : ¬L.Taken (fromUid, clientMsgId)) (hroom : L.count + 1 < 2 ^ 63) :
    ∃ db',
      (RedisRequest.evalCreateMessage fromUid toUid content clientMsgId now).run
        db = (newReply L.nextId fromUid toUid content clientMsgId now, db') ∧
      Represents (entriesOf db')
        (L.append (.new fromUid toUid content clientMsgId now) hfree hroom
          (Nat.two_pow_pos 63)) := by
  obtain ⟨text, hnextId, htext⟩ := h.nextId
  obtain ⟨pendingSet, hpending, hpendingIndexes⟩ := h.pending toUid
  obtain ⟨fromSet, hfrom, hfromIndexes⟩ := h.recent fromUid
  obtain ⟨oldToSet, holdTo, holdToIndexes⟩ := h.recent toUid
  have habsent := h.noMessage L.nextId L.find_nextId
  have hidem := stringAt_free h hfree
  let toSet : ZSet :=
    if toUid = fromUid then fromSet.insert now.toNat (toText L.nextId)
    else oldToSet
  have hto : zsetAt (Function.update db (StoreKey.recent fromUid).text
      (some (.zset (fromSet.insert now.toNat (toText L.nextId))))
      (StoreKey.recent toUid).text) = some toSet := by
    by_cases heq : toUid = fromUid
    · subst heq
      simp [toSet]
    · rw [update_text_of_ne _ _ (by simpa using heq)]
      simp only [toSet, heq, if_false]
      exact holdTo
  have hrun := @createNew_run db L fromUid toUid now content clientMsgId _ _ _ _
    hnextId htext hroom habsent hpending hfrom hto
  refine ⟨_, eval_ok ((Script.bind_ok (get_run hidem)).trans hrun), ?_⟩
  simp only [writeNew, entriesOf_update]
  apply h.append rfl
  · simp [toText, L.nextId_toNat]
  · simp
    rfl
  · exact recordFields_newFields L.nextId
  · simp [Message.new]
  · refine ⟨pendingSet.insert now.toNat (toText L.nextId), ?_, ?_⟩
    · simp [Message.new]
    · exact hpendingIndexes.append_insert (by simp [pendingScore, Message.new])
  · intro uid huid
    by_cases heqTo : uid = toUid
    · subst heqTo
      refine ⟨toSet.insert now.toNat (toText L.nextId), by simp, ?_⟩
      by_cases heq : uid = fromUid
      · subst heq
        apply hfromIndexes.of_append
        intro member
        by_cases hmember : member = toText L.nextId
        · simp [hmember, recentScore, Message.new]
        · simp [toSet, hmember]
      · simp only [toSet, heq, if_false]
        exact holdToIndexes.append_insert (by simp [recentScore, Message.new])
    · have heqFrom : uid = fromUid := huid.resolve_right heqTo
      subst heqFrom
      refine ⟨fromSet.insert now.toNat (toText L.nextId), ?_, ?_⟩
      · simp [heqTo]
      · exact hfromIndexes.append_insert (by simp [recentScore, Message.new])
  · intro k h₁ h₂ h₃ h₄ h₅ h₆
    simp only [Message.new] at h₃ h₄ h₅ h₆
    simp [h₁, h₂, h₃, h₄, h₅, h₆]

/-- A repeated request answers from the existing message and writes nothing. -/
theorem create_duplicate {id : UInt64} {m : Message}
    (h : Represents (entriesOf db) L) (hm : L.find id = some m)
    (hkey : m.clientKey = (fromUid, clientMsgId)) :
    (RedisRequest.evalCreateMessage fromUid toUid content clientMsgId now).run
        db =
      (.array (.bulk (literal "0") :: (m.texts id).map replyOfField), db) := by
  simp only [Message.clientKey, Prod.mk.injEq] at hkey
  have hidem := h.idempotency id m hm
  rw [hkey.1, hkey.2, entriesOf] at hidem
  obtain ⟨fields, hmessage, hfields⟩ := h.message id m hm
  rw [entriesOf] at hmessage
  have hget : stringAt (db (StoreKey.idempotency fromUid clientMsgId).text) =
      some (some (toText id)) := by
    rw [hidem]
    rfl
  have hexists : (exists? (StoreKey.message id).text).run db =
      (.ok true, db) := by
    simp [exists?, hmessage]
  have hhash : hashAt (db (StoreKey.message id).text) = some fields := by
    rw [hmessage]
    rfl
  apply eval_ok
  simp only [RedisRequest.script, kCreateMessageScript, luaAt_one,
    text_idempotency]
  rw [Script.bind_ok (get_run hget)]
  simp only [msgKeyPrefix_append, text_message]
  rw [Script.bind_ok hexists]
  simp only [if_true]
  rw [Script.bind_ok (hmget_run hhash), hfields]
  rfl

/-- When all ids have been handed out, the counter refuses. -/
theorem create_exhausted (h : Represents (entriesOf db) L)
    (hfree : ¬L.Taken (fromUid, clientMsgId)) (hroom : ¬L.count + 1 < 2 ^ 63) :
    (RedisRequest.evalCreateMessage fromUid toUid content clientMsgId now).run
        db = (.error .overflow, db) := by
  obtain ⟨text, hnextId, htext⟩ := h.nextId
  have hidem := stringAt_free h hfree
  have hfits := L.countFits
  have hle : (L.count : ℤ) ≤ integerMax := by
    rw [integerMax]
    omega
  have hfull : ¬(L.count : ℤ) + 1 ≤ integerMax := by
    rw [integerMax]
    omega
  apply eval_error
  simp only [RedisRequest.script, kCreateMessageScript, luaAt_one,
    text_idempotency]
  rw [Script.bind_ok (get_run hidem)]
  exact Script.bind_error (incr_overflow hnextId htext hle hfull)

end CreateScript

/-! ## Every request refines its effect on the ledger -/

section Refinement

variable {db : Db} {L : Ledger}

/-- What a state script finds in the database about a known message. -/
theorem Represents.found {id : UInt64} {m : Message}
    (h : Represents (entriesOf db) L) (hm : L.find id = some m) :
    ∃ fields pendingSet timeoutSet,
      db (makeMessageKey id) = some (.hash fields) ∧
      recordFields.map fields = m.texts id ∧
      zsetAt (db (makePendingKey m.toUid)) = some pendingSet ∧
      Indexes pendingSet L (pendingScore m.toUid) ∧
      zsetAt (db kRedisDeliveredTimeoutKey) = some timeoutSet ∧
      Indexes timeoutSet L timeoutScore := by
  obtain ⟨fields, hmessage, hfields⟩ := h.message id m hm
  obtain ⟨pendingSet, hpending, hpendingIndexes⟩ := h.pending m.toUid
  obtain ⟨timeoutSet, htimeout, htimeoutIndexes⟩ := h.timeout
  exact ⟨fields, pendingSet, timeoutSet, hmessage, hfields, hpending,
    hpendingIndexes, htimeout, htimeoutIndexes⟩

/-- The writes of a state script represent the changed ledger, if the new hash
and the new indexes are those of the changed message. -/
theorem Represents.writeMessage {id : UInt64} {m : Message} {change : Change}
    {fields : Fields} {pendingValue timeoutValue : Option Value}
    {pendingSet timeoutSet : ZSet}
    (h : Represents (entriesOf db) L) (hm : L.find id = some m)
    (hfields : recordFields.map fields = (change.apply m).texts id)
    (hpending : zsetAt pendingValue = some pendingSet)
    (hpendingIndexes :
      Indexes pendingSet (L.modify id change) (pendingScore m.toUid))
    (htimeout : zsetAt timeoutValue = some timeoutSet)
    (htimeoutIndexes : Indexes timeoutSet (L.modify id change) timeoutScore) :
    Represents (entriesOf (ReliableDelivery.writeMessage db id m.toUid fields
      pendingValue timeoutValue)) (L.modify id change) := by
  rw [entriesOf_writeMessage]
  refine h.modify hm (by simp) hfields (by simpa using hpending)
    hpendingIndexes (by simpa using htimeout) htimeoutIndexes ?_
  intro k h₁ h₂ h₃
  simp [h₁, h₂, h₃]

theorem refines_markDelivered {id now : UInt64} {m : Message}
    (h : Represents (entriesOf db) L) (hm : L.find id = some m) :
    ∃ db', (RedisRequest.evalMsgStateScript .markDelivered id now).run db =
        (.integer 1, db') ∧
      Represents (entriesOf db') (L.modify id (.deliver now)) := by
  obtain ⟨fields, pendingSet, timeoutSet, hmessage, hfields, hpending,
    hpendingIndexes, htimeout, htimeoutIndexes⟩ := h.found hm
  refine ⟨_, markDelivered_run (by rw [hmessage]; rfl) (field_toUid hfields)
    hpending htimeout, ?_⟩
  apply h.writeMessage hm
  · simp only [recordFields, List.map_cons, List.map_nil, Message.texts,
      List.cons.injEq] at hfields
    simp +decide [recordFields, setFields, Change.deliver, Message.texts,
      MessageStatus.text, hfields]
  · exact zsetAt_zsetValue _
  · exact hpendingIndexes.modify_erase hm
      (by simp [pendingScore, Change.deliver])
  · exact zsetAt_zset _
  · exact htimeoutIndexes.modify_insert hm
      (by simp [timeoutScore, Change.deliver])

theorem refines_markPending {id now : UInt64} {m : Message}
    (h : Represents (entriesOf db) L) (hm : L.find id = some m) :
    ∃ db', (RedisRequest.evalMsgStateScript .markPending id now).run db =
        (.integer 1, db') ∧
      Represents (entriesOf db') (L.modify id .postpone) := by
  obtain ⟨fields, pendingSet, timeoutSet, hmessage, hfields, hpending,
    hpendingIndexes, htimeout, htimeoutIndexes⟩ := h.found hm
  refine ⟨_, markPending_run (by rw [hmessage]; rfl) (field_toUid hfields)
    (field_createdAtMs hfields) hpending htimeout, ?_⟩
  apply h.writeMessage hm
  · simp only [recordFields, List.map_cons, List.map_nil, Message.texts,
      List.cons.injEq] at hfields
    simp +decide [recordFields, setFields, Change.postpone, Message.texts,
      MessageStatus.text, hfields]
  · exact zsetAt_zset _
  · exact hpendingIndexes.modify_insert hm
      (by simp [pendingScore, Change.postpone])
  · exact zsetAt_zsetValue _
  · exact htimeoutIndexes.modify_erase hm
      (by simp [timeoutScore, Change.postpone])

theorem refines_markFailed {id now : UInt64} {m : Message}
    (h : Represents (entriesOf db) L) (hm : L.find id = some m) :
    ∃ db', (RedisRequest.evalMsgStateScript .markFailed id now).run db =
        (.integer 1, db') ∧
      Represents (entriesOf db') (L.modify id .fail) := by
  obtain ⟨fields, pendingSet, timeoutSet, hmessage, hfields, hpending,
    hpendingIndexes, htimeout, htimeoutIndexes⟩ := h.found hm
  refine ⟨_, markFailed_run (by rw [hmessage]; rfl) (field_toUid hfields)
    hpending htimeout, ?_⟩
  apply h.writeMessage hm
  · simp only [recordFields, List.map_cons, List.map_nil, Message.texts,
      List.cons.injEq] at hfields
    simp +decide [recordFields, setFields, Change.fail, Message.texts,
      MessageStatus.text, hfields]
  · exact zsetAt_zsetValue _
  · exact hpendingIndexes.modify_erase hm
      (by simp [pendingScore, Change.fail])
  · exact zsetAt_zsetValue _
  · exact htimeoutIndexes.modify_erase hm
      (by simp [timeoutScore, Change.fail])

theorem refines_markAcked {id now : UInt64} {m : Message}
    (h : Represents (entriesOf db) L) (hm : L.find id = some m) :
    ∃ db', (RedisRequest.evalMarkAckedScript id m.toUid now).run db =
        (.integer 1, db') ∧
      Represents (entriesOf db') (L.modify id (.acknowledge m.toUid now)) := by
  obtain ⟨fields, pendingSet, timeoutSet, hmessage, hfields, hpending,
    hpendingIndexes, htimeout, htimeoutIndexes⟩ := h.found hm
  refine ⟨_, markAcked_run (by rw [hmessage]; rfl) (field_toUid hfields)
    hpending htimeout, ?_⟩
  apply h.writeMessage hm
  · simp only [recordFields, List.map_cons, List.map_nil, Message.texts,
      List.cons.injEq] at hfields
    simp +decide [recordFields, setFields, Change.acknowledge, Message.texts,
      MessageStatus.text, hfields]
  · exact zsetAt_zsetValue _
  · exact hpendingIndexes.modify_erase hm
      (by simp [pendingScore, Change.acknowledge])
  · exact zsetAt_zsetValue _
  · exact htimeoutIndexes.modify_erase hm
      (by simp [timeoutScore, Change.acknowledge])

theorem refines_incrementRetry {id : UInt64} {m : Message}
    (h : Represents (entriesOf db) L) (hm : L.find id = some m)
    (hroom : m.retryCount + 1 < 2 ^ 63) :
    ∃ db', (RedisRequest.evalIncrementRetryScript id).run db =
        (.integer 1, db') ∧
      Represents (entriesOf db') (L.modify id .retry) := by
  obtain ⟨fields, pendingSet, timeoutSet, hmessage, hfields, hpending,
    hpendingIndexes, htimeout, htimeoutIndexes⟩ := h.found hm
  refine ⟨_, incrementRetry_run hmessage (field_retryCount hfields) hroom, ?_⟩
  have hentries : ∀ v, entriesOf (Function.update db (makeMessageKey id) v) =
      Function.update (entriesOf db) (.message id) v := by
    intro v
    rw [← entriesOf_update]
    rfl
  rw [hentries]
  have hpendingEntry : zsetAt (Function.update (entriesOf db) (.message id)
      (some (.hash (setFields fields
        [(literal "retry_count", render (m.retryCount + 1))])))
      (.pending m.toUid)) = some pendingSet := by
    rw [Function.update_of_ne (by simp)]
    exact hpending
  have htimeoutEntry : zsetAt (Function.update (entriesOf db) (.message id)
      (some (.hash (setFields fields
        [(literal "retry_count", render (m.retryCount + 1))])))
      .deliveredTimeout) = some timeoutSet := by
    rw [Function.update_of_ne (by simp)]
    exact htimeout
  refine h.modify hm (Function.update_self _ _ _) ?_ hpendingEntry
    (hpendingIndexes.modify_same hm ?_) htimeoutEntry
    (htimeoutIndexes.modify_same hm ?_) ?_
  · simp only [recordFields, List.map_cons, List.map_nil, Message.texts,
      List.cons.injEq] at hfields
    simp only [Change.retry, hroom, if_true]
    simp +decide [recordFields, setFields, Message.texts, hfields]
  · simp only [Change.retry, hroom, if_true, pendingScore]
  · simp only [Change.retry, hroom, if_true, timeoutScore]
  · intro k hk _ _
    rw [Function.update_of_ne hk]

/-! ## One theorem for each kind of request -/

/-- A status script changes a known message and refuses an unknown one. -/
theorem run_msgState (h : Represents (entriesOf db) L)
    (script : MsgStateScript) (id now : UInt64) :
    (∃ m db', L.find id = some m ∧
      (RedisRequest.evalMsgStateScript script id now).run db =
        (.integer 1, db') ∧
      Represents (entriesOf db') (L.modify id (script.change now))) ∨
    (L.find id = none ∧
      (RedisRequest.evalMsgStateScript script id now).run db =
        (.integer 0, db)) := by
  cases hm : L.find id with
  | none => exact .inr ⟨rfl, msgState_absent (h.noMessage id hm)⟩
  | some m =>
      left
      cases script with
      | markDelivered =>
          obtain ⟨db', hrun, hrep⟩ := @refines_markDelivered db L id now m h hm
          exact ⟨m, db', rfl, hrun, hrep⟩
      | markPending =>
          obtain ⟨db', hrun, hrep⟩ := @refines_markPending db L id now m h hm
          exact ⟨m, db', rfl, hrun, hrep⟩
      | markFailed =>
          obtain ⟨db', hrun, hrep⟩ := @refines_markFailed db L id now m h hm
          exact ⟨m, db', rfl, hrun, hrep⟩

/-- An acknowledgement changes a message of the acknowledging user only. -/
theorem run_markAcked (h : Represents (entriesOf db) L)
    (id ackUid now : UInt64) :
    (∃ m db', L.find id = some m ∧ m.toUid = ackUid ∧
      (RedisRequest.evalMarkAckedScript id ackUid now).run db =
        (.integer 1, db') ∧
      Represents (entriesOf db') (L.modify id (.acknowledge ackUid now))) ∨
    ((∀ m, L.find id = some m → m.toUid ≠ ackUid) ∧
      (RedisRequest.evalMarkAckedScript id ackUid now).run db =
        (.integer 0, db)) := by
  cases hm : L.find id with
  | none =>
      refine .inr ⟨?_, markAcked_absent (h.noMessage id hm)⟩
      intro m hsome
      cases hsome
  | some m =>
      by_cases hto : m.toUid = ackUid
      · subst hto
        obtain ⟨db', hrun, hrep⟩ := @refines_markAcked db L id now m h hm
        exact .inl ⟨m, db', rfl, rfl, hrun, hrep⟩
      · obtain ⟨fields, -, -, hmessage, hfields, -⟩ := h.found hm
        refine .inr ⟨?_, markAcked_refused (by rw [hmessage]; rfl)
          (field_toUid hfields) hto⟩
        intro m' hm'
        rw [Option.some.injEq] at hm'
        rw [← hm']
        exact hto

/-- A retry is counted unless the message is unknown or its counter is full. -/
theorem run_incrementRetry (h : Represents (entriesOf db) L) (id : UInt64) :
    (∃ m db', L.find id = some m ∧ m.retryCount + 1 < 2 ^ 63 ∧
      (RedisRequest.evalIncrementRetryScript id).run db = (.integer 1, db') ∧
      Represents (entriesOf db') (L.modify id .retry)) ∨
    ((∀ m, L.find id = some m → ¬m.retryCount + 1 < 2 ^ 63) ∧
      ∃ reply, replyIsTrue (some reply) = false ∧
        (RedisRequest.evalIncrementRetryScript id).run db = (reply, db)) := by
  cases hm : L.find id with
  | none =>
      refine .inr ⟨?_, .integer 0, rfl,
        incrementRetry_absent (h.noMessage id hm)⟩
      intro m hsome
      cases hsome
  | some m =>
      by_cases hroom : m.retryCount + 1 < 2 ^ 63
      · obtain ⟨db', hrun, hrep⟩ := refines_incrementRetry h hm hroom
        exact .inl ⟨m, db', rfl, hroom, hrun, hrep⟩
      · obtain ⟨fields, -, -, hmessage, hfields, -⟩ := h.found hm
        refine .inr ⟨?_, .error .overflow, rfl, incrementRetry_overflow hmessage
          (field_retryCount hfields) (L.retryFits id m hm) hroom⟩
        intro m' hm'
        rw [Option.some.injEq] at hm'
        rw [← hm']
        exact hroom

end Refinement

end ReliableDelivery
