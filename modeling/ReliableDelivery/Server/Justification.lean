import ReliableDelivery.Server.System

/-!
# Why the server issues its commands

`Justified` says what must have happened in a run before a handler issues a
command that matters: which envelope it is handling, which identity check it has
made, which lookup gave it the connection, which message the record it acts on
belongs to.  `justified_of_running` proves it of every command of every run, by
following each handler's code under arbitrary interference.
-/

namespace ReliableDelivery

open Decimal Redis MessageStore EnvelopeFactory TransitionSystem Program

variable {P : Platform}

/-- In the run so far, the job issued the command in state `s` and got the
answer. -/
def Did (e : ServerRun P) (job : Job) (command : Command)
    (answer : command.Answer) (s : ServerState) : Prop :=
  ∃ t, (s, .execute t job command answer) ∈ e.history

/-- In the run so far, the latest lookup that the job made was for `uid`, in
state `s`, and it found `conn`. -/
def LastLookup (e : ServerRun P) (job : Job) (uid : UInt64) (conn : Conn)
    (s : ServerState) : Prop :=
  ∃ t after before, e.history =
      after ++ (s, .execute t job (.getConnByUid uid) (some conn)) :: before ∧
    ∀ s' t' uid' answer,
      (s', .execute t' job (.getConnByUid uid') answer) ∉ after

/-- The record was read from a message of the ledger.  The message may have
moved on since, but its origin is the same and it has not been retried less. -/
def Known (L : Ledger) (record : MessageRecord) : Prop :=
  ∃ m, L.find record.msgId = some m ∧
    (record.fromUid, record.toUid, record.content, record.clientMsgId,
      record.createdAtMs) = m.origin ∧
    record.retryCount ≤ m.retryCount

/-- The job handles this envelope, received on `conn`. -/
def Handles (job : Job) (conn : Conn) (envelope : Envelope) : Prop :=
  job.task = .event (.envelope conn envelope)

/-- An acknowledgement answers the request the job is handling.  A negative one
names no message, a positive one the message that the store gave for it. -/
def JustifiedAck (job : Job) (e : ServerRun P) (conn : Conn) (ack : Ack) :
    Prop :=
  ∃ envelope, Handles job conn envelope ∧ ack.seq = envelope.seq ∧
    (ack.ok = false → ack.msgId = 0) ∧
    (ack.ok = true → envelope.type = .chatReq ∧
      ∃ request now answer s, envelope.chatReq? = some request ∧
        Did e job (.redis (.evalCreateMessage request.fromUid request.toUid
          request.content request.clientMsgId now)) answer s ∧
        (readCreateReply answer).ok = true ∧
        (readCreateReply answer).record.msgId = ack.msgId)

/-- A push carries a message of the ledger to the connection that the job's
latest lookup found for the receiver or, with the history, for the sender. -/
def JustifiedPush (job : Job) (e : ServerRun P) (conn : Conn)
    (push : ChatPush) : Prop :=
  ∃ m uid s, e.ledger.find push.msgId = some m ∧
    push.fromUid = m.fromUid ∧ push.toUid = m.toUid ∧
    push.content = m.content ∧
    LastLookup e job uid conn s ∧
    (uid = m.toUid ∨ push.history = true ∧ uid = m.fromUid)

/-- What has happened when the job issues the command. -/
def Justified (job : Job) (e : ServerRun P) : Command → Prop
  | .redis (.evalCreateMessage fromUid toUid content clientMsgId _) =>
      ∃ conn envelope s, Handles job conn envelope ∧
        envelope.type = .chatReq ∧
        envelope.chatReq? = some { fromUid, toUid, content, clientMsgId } ∧
        fromUid ≠ 0 ∧ Did e job (.getUidByConn conn) fromUid s
  | .redis (.evalMarkAckedScript msgId ackUid _) =>
      ∃ conn envelope ack s, Handles job conn envelope ∧
        envelope.type = .ack ∧ envelope.ack? = some ack ∧
        ack.msgId = msgId ∧ ackUid ≠ 0 ∧
        Did e job (.getUidByConn conn) ackUid s
  | .redis (.evalMsgStateScript .markFailed msgId _) =>
      ∃ m, e.ledger.find msgId = some m ∧
        kMaxDeliveryRetryCount ≤ m.retryCount
  | .bindUser conn _ => ∃ envelope, Handles job conn envelope
  | .sendEnvelope conn envelope =>
      (∀ ack, envelope.payload = some (.ack ack) →
        JustifiedAck job e conn ack) ∧
      (∀ push, envelope.payload = some (.chatPush push) →
        JustifiedPush job e conn push)
  | _ => True

/-- The contract of a job. -/
abbrev jobContract (P : Platform) (job : Job) :
    Contract (ServerRun P) Command Command.Answer :=
  (serverThreads P).contract job (Justified job)

/-! ## Facts about the past persist -/

section Past

variable {e e' : ServerRun P} {job : Job}

theorem Did.mono {command : Command} {answer : command.Answer}
    {s : ServerState} (h : Did e job command answer s)
    (hlater : Execution.Later e e') : Did e' job command answer s := by
  obtain ⟨t, ht⟩ := h
  exact ⟨t, hlater.mem_history ht⟩

/-- The latest lookup stays the latest until the job makes another. -/
theorem LastLookup.next {uid : UInt64} {conn : Conn} {s : ServerState}
    {l : ServerLabel} (h : LastLookup e job uid conn s)
    (hnext : Execution.Next e l e')
    (hother : ∀ t uid' answer, l ≠ .execute t job (.getConnByUid uid') answer) :
    LastLookup e' job uid conn s := by
  obtain ⟨t, after, before, hhistory, hlast⟩ := h
  refine ⟨t, (e.state, l) :: after, before, ?_, ?_⟩
  · rw [hnext.2, hhistory]
    rfl
  · intro s' t' uid' answer hmem
    rcases List.mem_cons.mp hmem with heq | hmem
    · exact hother t' uid' answer (Prod.mk.inj heq).2.symm
    · exact hlast s' t' uid' answer hmem

theorem LastLookup.without {uid : UInt64} {conn : Conn} {s : ServerState}
    (h : LastLookup e job uid conn s)
    (hothers : (serverThreads P).Without job e e') :
    LastLookup e' job uid conn s := by
  apply hothers.preserves (P := fun e' => LastLookup e' job uid conn s) h
  intro e₁ e₂ l hlookup hnext hother
  apply hlookup.next hnext
  rintro t uid' answer rfl
  exact hother _ answer (performs_iff.mpr ⟨t, rfl⟩)

theorem LastLookup.did {uid : UInt64} {conn : Conn} {s : ServerState}
    (h : LastLookup e job uid conn s) :
    Did e job (.getConnByUid uid) (some conn) s := by
  obtain ⟨t, after, before, hhistory, -⟩ := h
  refine ⟨t, ?_⟩
  rw [hhistory]
  exact List.mem_append_right after List.mem_cons_self

theorem Known.mono {L L' : Ledger} {record : MessageRecord}
    (h : Known L record) (hextends : L.Extends L') : Known L' record := by
  obtain ⟨m, hm, horigin, hretry⟩ := h
  obtain ⟨m', hm', horigin', hretry'⟩ := hextends.2 _ m hm
  refine ⟨m', hm', horigin.trans horigin'.symm, ?_⟩
  omega

theorem Known.later {record : MessageRecord} (h : Known e.ledger record)
    (hlater : Execution.Later e e') : Known e'.ledger record :=
  h.mono (ServerRun.extends_later hlater)

theorem toInt32_le (n : ℕ) : toInt32 n ≤ n := by
  rw [toInt32, Int.bmod_def]
  omega

theorem known_record {L : Ledger} {id : UInt64} {m : Message}
    (hm : L.find id = some m) : Known L (m.record id) := by
  refine ⟨m, hm, rfl, ?_⟩
  simp only [Message.record]
  exact toInt32_le m.retryCount

/-- What a command of the past did: its effect, and the run around it. -/
theorem Did.effect {command : Command} {answer : command.Answer}
    {s : ServerState} (h : Did e job command answer s) :
    ∃ (e₁ e₂ : ServerRun P) (s' : ServerState), e₁.state = s ∧
      Execution.Later e₁ e₂ ∧ Execution.Later e₂ e ∧
      Effect P s command answer s' ∧ e₂.ledger = s'.store.ledger := by
  obtain ⟨t, hmem⟩ := h
  obtain ⟨e₁, e₂, hs, hnext, hlater⟩ := Execution.exists_next_of_mem hmem
  have hstep : ServerStep P e₁.state (.execute t job command answer)
      e₂.state := hnext.1
  obtain ⟨next, s', -, heffect, hstate⟩ := hstep.execute_inv
  rw [hs] at heffect
  refine ⟨e₁, e₂, s', hs, hnext.later, hlater, heffect, ?_⟩
  simp only [ServerRun.ledger, hstate]
  rfl

/-- The envelope a job acts on was received. -/
theorem Did.received {command : Command} {answer : command.Answer}
    {s : ServerState} {conn : Conn} {envelope : Envelope}
    (h : Did e job command answer s) (hhandles : Handles job conn envelope) :
    Received e conn envelope := by
  obtain ⟨t, hmem⟩ := h
  obtain ⟨e₁, e₂, -, hnext, hlater⟩ := Execution.exists_next_of_mem hmem
  have hstep : ServerStep P e₁.state (.execute t job command answer)
      e₂.state := hnext.1
  obtain ⟨next, -, hrunning, -, -⟩ := hstep.execute_inv
  have hreceived : Received e₁ conn envelope :=
    ServerRun.received e₁ hhandles (.inr ⟨t, _, hrunning⟩)
  exact hreceived.mono (hnext.later.trans hlater)

/-- The identity check tells who was logged in. -/
theorem Did.getUidByConn {conn : Conn}
    {uid : UInt64} {s : ServerState}
    (h : Did e job (.getUidByConn conn) uid s) :
    s.users.getUidByConn (some conn) = uid := by
  obtain ⟨e₁, e₂, s', hs, -, -, heffect, -⟩ := h.effect
  cases heffect
  rfl

/-- A lookup tells where the user was online. -/
theorem Did.getConnByUid {uid : UInt64} {answer : Option Conn}
    {s : ServerState} (h : Did e job (.getConnByUid uid) answer s) :
    s.users.getConnByUid uid = answer := by
  obtain ⟨e₁, e₂, s', hs, -, -, heffect, -⟩ := h.effect
  cases heffect
  rfl

/-- The user tables agreed when the command was issued. -/
theorem Did.consistent {command : Command} {answer : command.Answer}
    {s : ServerState} (h : Did e job command answer s) :
    s.users.Consistent := by
  obtain ⟨e₁, e₂, s', hs, -⟩ := h.effect
  rw [← hs]
  exact ServerRun.users_consistent e₁

end Past

/-! ## Commands -/

section Commands

variable {e : ServerRun P} {job : Job}

/-- Issuing a single command. -/
theorem safe_perform {command : Command}
    (h : ∀ e', (serverThreads P).Without job e e' → Justified job e' command) :
    Safe (jobContract P job) (fun e' answer => ∃ s, Did e' job command answer s)
      (perform command) e := by
  apply Safe.call h
  rintro e₁ answer e₂ - ⟨l, hnext, hperforms⟩ e₃ hothers
  obtain ⟨t, rfl⟩ := performs_iff.mp hperforms
  exact ⟨e₁.state, t, hothers.later.mem_history hnext.mem_history⟩

/-- A program that looks nobody up leaves the latest lookup as it is. -/
theorem safe_keepsLookup {α : Type} {post : ServerRun P → α → Prop}
    {p : Handler α} {uid : UInt64} {conn : Conn} {s : ServerState}
    (hp : Safe (jobContract P job) post p e)
    (havoids : Avoids (fun _ _ => True)
      (fun command => ∃ uid, command = .getConnByUid uid) (fun _ => True) p)
    (hlookup : LastLookup e job uid conn s) :
    Safe (jobContract P job)
      (fun e' a => LastLookup e' job uid conn s ∧ post e' a) p e := by
  apply Safe.frame _ _ havoids hp hlookup
  · intro e₁ e₂ h hothers
    exact h.without hothers
  · rintro e₁ command answer e₂ h htouches ⟨l, hnext, hperforms⟩
    obtain ⟨t, rfl⟩ := performs_iff.mp hperforms
    apply h.next hnext
    rintro t' uid' answer' heq
    cases heq
    exact htouches ⟨uid', rfl⟩

theorem safe_nowMs :
    Safe (jobContract P job) (fun _ _ => True) Handler.nowMs e := by
  apply (safe_perform (by intro _ _; trivial)).weaken
  intro _ _ _ _
  trivial

/-- A command whose justification is trivial and whose answer is not used. -/
theorem safe_redis {request : RedisRequest}
    (h : ∀ e', Execution.Later e e' → Justified job e' (.redis request)) :
    Safe (jobContract P job)
      (fun e' answer => ∃ s, Did e' job (.redis request) answer s)
      (RedisClient.command request) e :=
  safe_perform fun e' hothers => h e' hothers.later

/-! ## Reading from the store -/

/-- A call that got a reply was executed at an earlier point of the run. -/
theorem Did.answered {request : RedisRequest} {reply : Reply} {s : ServerState}
    (h : Did e job (.redis request) (some reply) s) :
    ∃ e₁ : ServerRun P, Execution.Later e₁ e ∧
      (request.run e₁.state.store.db).1 = reply := by
  obtain ⟨e₁, e₂, s', rfl, h₁₂, h₂, heffect, -⟩ := h.effect
  cases heffect with
  | redisAnswered _ => exact ⟨e₁, h₁₂.trans h₂, rfl⟩

/-- What a call for a record answers. -/
theorem Did.read {id : UInt64} {reply : Reply} {s : ServerState}
    (h : Did e job (.redis (.hmgetRecord id)) (some reply) s) :
    ∃ e₁ : ServerRun P, Execution.Later e₁ e ∧ readRecordReply (some reply) =
      (e₁.ledger.find id).map fun m => m.record id := by
  obtain ⟨e₁, hlater, hreply⟩ := h.answered
  obtain ⟨reply', hrun, hread⟩ := run_hmgetRecord (ServerRun.represents e₁) id
  rw [hrun] at hreply
  rw [← hreply]
  exact ⟨e₁, hlater, hread⟩

/-- A record that was read is a message of an earlier point of the run. -/
theorem found_of_did {id : UInt64} {answer : Option Reply} {s : ServerState}
    {record : MessageRecord}
    (h : Did e job (.redis (.hmgetRecord id)) answer s)
    (hread : readRecordReply answer = some record) :
    ∃ (e₁ : ServerRun P) (m : Message), Execution.Later e₁ e ∧
      e₁.ledger.find id = some m ∧ record = m.record id := by
  rcases answer with _ | reply
  · cases hread
  · obtain ⟨e₁, hlater, hsame⟩ := h.read
    rw [hread] at hsame
    obtain ⟨m, hm, hrecord⟩ := Option.map_eq_some_iff.mp hsame.symm
    exact ⟨e₁, m, hlater, hm, hrecord.symm⟩

/-- A record that was read is known. -/
theorem known_of_did {id : UInt64} {answer : Option Reply} {s : ServerState}
    {record : MessageRecord}
    (h : Did e job (.redis (.hmgetRecord id)) answer s)
    (hread : readRecordReply answer = some record) :
    Known e.ledger record := by
  obtain ⟨e₁, m, hlater, hm, rfl⟩ := found_of_did h hread
  exact (known_record hm).later hlater

theorem safe_fetchRecord (id : UInt64) :
    Safe (jobContract P job) (fun e' o => ∀ record ∈ o, Known e'.ledger record)
      (fetchRecord id : Handler _) e := by
  simp only [fetchRecord]
  split
  · intro e' _ record hrecord
    cases hrecord
  · apply Safe.bind (safe_redis (by intro _ _; trivial))
    rintro answer e₁ - ⟨s, hdid⟩ e₂ hothers record hrecord
    exact (known_of_did hdid hrecord).later hothers.later

theorem safe_fetchElement (keep : MessageRecord → Bool) (element : Reply) :
    Safe (jobContract P job)
      (fun e' o => ∀ record ∈ o, Known e'.ledger record ∧ keep record = true)
      (fetchElement keep element : Handler _) e := by
  simp only [fetchElement]
  split
  · intro e' _ record hrecord
    cases hrecord
  · apply Safe.bind (safe_fetchRecord _)
    intro o e₁ _ ho e₂ hothers record hrecord
    rw [Option.mem_def, Option.filter_eq_some_iff] at hrecord
    exact ⟨(ho record hrecord.1).later hothers.later, hrecord.2⟩

/-- All records collected from an index are known and pass the check. -/
theorem safe_collectRecords (keep : MessageRecord → Bool)
    (elements : List Reply) :
    Safe (jobContract P job)
      (fun e' l => ∀ record ∈ l, Known e'.ledger record ∧ keep record = true)
      (collect elements (fetchElement keep) : Handler _) e := by
  apply safe_collect fun (e' : ServerRun P) record =>
    Known e'.ledger record ∧ keep record = true
  · intro record e₁ e₂ hlater hrecord
    exact ⟨hrecord.1.later hlater, hrecord.2⟩
  · intro element _ e' _
    exact safe_fetchElement keep element

theorem safe_getPendingMessages (uid : UInt64) :
    Safe (jobContract P job)
      (fun e' l => ∀ record ∈ l, Known e'.ledger record)
      (getPendingMessages uid : Handler _) e := by
  apply Safe.bind (safe_redis (by intro _ _; trivial))
  intro reply e₁ _ _
  apply (safe_collectRecords _ _).weaken
  intro l e₂ _ hl record hrecord
  exact (hl record hrecord).1

theorem safe_getRecentMessages (uid limit : UInt64) :
    Safe (jobContract P job)
      (fun e' l => ∀ record ∈ l, Known e'.ledger record ∧
        (record.fromUid = uid ∨ record.toUid = uid))
      (getRecentMessages uid limit : Handler _) e := by
  simp only [getRecentMessages]
  split
  · intro e' _ record hrecord
    cases hrecord
  · apply Safe.bind (safe_redis (by intro _ _; trivial))
    intro reply e₁ _ _
    apply Safe.bind (safe_collectRecords _ _)
    intro l e₂ _ hl e₃ hothers record hrecord
    obtain ⟨hknown, hkeep⟩ := hl record (List.mem_reverse.mp hrecord)
    exact ⟨hknown.later hothers.later, by simpa using hkeep⟩

theorem safe_getTimeoutDeliveredMessages (now timeout : UInt64) :
    Safe (jobContract P job)
      (fun e' l => ∀ record ∈ l, Known e'.ledger record)
      (getTimeoutDeliveredMessages now timeout : Handler _) e := by
  apply Safe.bind (safe_redis (by intro _ _; trivial))
  intro reply e₁ _ _
  apply (safe_collectRecords _ _).weaken
  intro l e₂ _ hl record hrecord
  exact (hl record hrecord).1

end Commands

/-! ## Envelopes -/

section Envelopes

variable {e : ServerRun P} {job : Job}

theorem safe_createAck (seq msgId : UInt64) (ok : Bool) (reason : Bytes) :
    Safe (jobContract P job)
      (fun _ envelope =>
        envelope.payload = some (.ack { msgId, seq, ok, reason }))
      (createAck seq msgId ok reason : Handler _) e := by
  apply Safe.bind safe_nowMs
  intro now e₁ _ _ e₂ _
  rfl

theorem safe_createLoginResponse (seq : UInt64) (ok : Bool) (reason : Bytes) :
    Safe (jobContract P job)
      (fun _ envelope =>
        envelope.payload = some (.loginResp { ok, reason }))
      (createLoginResponse seq ok reason : Handler _) e := by
  apply Safe.bind safe_nowMs
  intro now e₁ _ _ e₂ _
  rfl

/-- The push of a record carries the record's fields. -/
theorem safe_createRecordPush (record : MessageRecord) (history : Bool) :
    Safe (jobContract P job)
      (fun _ envelope => ∃ push, envelope.payload = some (.chatPush push) ∧
        push.msgId = record.msgId ∧ push.fromUid = record.fromUid ∧
        push.toUid = record.toUid ∧ push.content = record.content ∧
        push.history = history)
      (createRecordPush record history) e := by
  apply Safe.bind safe_nowMs
  intro now e₁ _ _
  by_cases hstamp : record.createdAtMs = 0
  · rw [if_pos hstamp]
    apply Safe.bind safe_nowMs
    intro stamp e₂ _ _ e₃ _
    exact ⟨_, rfl, rfl, rfl, rfl, rfl, rfl⟩
  · rw [if_neg hstamp]
    intro e₂ _
    exact ⟨_, rfl, rfl, rfl, rfl, rfl, rfl⟩

theorem safe_sendEnvelope {conn : Conn} {envelope : Envelope}
    (h : ∀ e', (serverThreads P).Without job e e' →
      Justified job e' (.sendEnvelope conn envelope)) :
    Safe (jobContract P job) (fun _ _ => True) (sendEnvelope conn envelope)
      e := by
  apply (safe_perform h).weaken
  intro _ _ _ _
  trivial

/-- Sending an acknowledgement needs its justification. -/
theorem safe_sendAck {conn : Conn} {envelope : Envelope} {ack : Ack}
    (hpayload : envelope.payload = some (.ack ack))
    (h : ∀ e', Execution.Later e e' → JustifiedAck job e' conn ack) :
    Safe (jobContract P job) (fun _ _ => True) (sendEnvelope conn envelope)
      e := by
  apply safe_sendEnvelope
  intro e' hothers
  refine ⟨?_, ?_⟩
  · intro ack' hack'
    rw [hpayload, Option.some.injEq, Payload.ack.injEq] at hack'
    rw [← hack']
    exact h e' hothers.later
  · intro push hpush
    rw [hpayload] at hpush
    cases hpush

/-- A negative acknowledgement answers the request being handled. -/
theorem safe_sendErrorAck {conn : Conn} {envelope : Envelope} {reason : Bytes}
    (h : Handles job conn envelope) :
    Safe (jobContract P job) (fun _ _ => True)
      (sendErrorAck conn envelope.seq reason) e := by
  apply Safe.bind (safe_createAck _ _ _ _)
  intro ackEnvelope e₁ _ hpayload
  apply safe_sendAck hpayload
  intro e' _
  refine ⟨envelope, h, rfl, fun _ => rfl, ?_⟩
  intro hok
  cases hok

/-- Sending a push needs its justification. -/
theorem safe_sendPush {conn : Conn} {envelope : Envelope} {push : ChatPush}
    (hpayload : envelope.payload = some (.chatPush push))
    (h : ∀ e', (serverThreads P).Without job e e' →
      JustifiedPush job e' conn push) :
    Safe (jobContract P job) (fun _ _ => True) (sendEnvelope conn envelope)
      e := by
  apply safe_sendEnvelope
  intro e' hothers
  refine ⟨?_, ?_⟩
  · intro ack hack
    rw [hpayload] at hack
    cases hack
  · intro push' hpush'
    rw [hpayload, Option.some.injEq, Payload.chatPush.injEq] at hpush'
    rw [← hpush']
    exact h e' hothers

end Envelopes

/-! ## Delivery -/

section Delivery

variable {e : ServerRun P} {job : Job}

/-- A command that looks nobody up. -/
theorem avoids_lookup_perform {command : Command}
    (h : ∀ uid, command ≠ .getConnByUid uid) :
    Avoids (fun _ _ => True) (fun c => ∃ uid, c = .getConnByUid uid)
      (fun _ => True) (perform command : Handler _) := by
  refine (avoids_perform ?_).weaken fun _ _ => trivial
  rintro ⟨uid, heq⟩
  exact h uid heq

theorem avoids_lookup_createRecordPush (record : MessageRecord)
    (history : Bool) :
    Avoids (fun _ _ => True) (fun c => ∃ uid, c = .getConnByUid uid)
      (fun _ => True) (createRecordPush record history) := by
  have hnow : Avoids (fun _ _ => True) (fun c => ∃ uid, c = .getConnByUid uid)
      (fun _ => True) Handler.nowMs :=
    avoids_lookup_perform (by intro uid h; cases h)
  apply hnow.bind
  intro now _
  by_cases hstamp : record.createdAtMs = 0
  · rw [if_pos hstamp]
    apply hnow.bind
    intro stamp _
    exact avoids_done.mpr trivial
  · rw [if_neg hstamp]
    exact avoids_done.mpr trivial

/-- A lookup is the latest one until the next. -/
theorem safe_getConnByUid (uid : UInt64) :
    Safe (jobContract P job)
      (fun e' o => ∀ conn ∈ o, ∃ s, LastLookup e' job uid conn s)
      (Handler.getConnByUid uid) e := by
  apply Safe.call
  · intro e' _
    trivial
  · rintro e₁ answer e₂ - ⟨l, hnext, hperforms⟩ e₃ hothers conn hconn
    obtain ⟨t, rfl⟩ := performs_iff.mp hperforms
    obtain rfl : answer = some conn := hconn
    have hnow : LastLookup e₂ job uid conn e₁.state := by
      refine ⟨t, [], e₁.history, hnext.2, ?_⟩
      intro _ _ _ _ hmem
      cases hmem
    exact ⟨e₁.state, hnow.without hothers⟩

/-- The target was looked up by this job. -/
theorem safe_onlineTarget (uid : UInt64) :
    Safe (jobContract P job)
      (fun e' o => ∀ conn ∈ o, ∃ s, LastLookup e' job uid conn s)
      (onlineTarget uid) e := by
  apply Safe.bind (safe_getConnByUid uid)
  intro target e₁ _ htarget
  rcases target with _ | conn
  · intro e₂ _ conn hconn
    cases hconn
  · obtain ⟨s, hlookup⟩ := htarget conn rfl
    have hconnected : Safe (jobContract P job)
        (fun e' answer => LastLookup e' job uid conn s ∧
          ∃ s', Did e' job (.connected conn) answer s')
        (Handler.connected conn) e₁ :=
      safe_keepsLookup (safe_perform (by intro _ _; trivial))
        (avoids_lookup_perform (by intro uid h; cases h)) hlookup
    apply Safe.bind hconnected
    rintro connected e₂ - ⟨hlookup, -⟩ e₃ hothers conn' hconn'
    have hsame : conn' = conn := by
      rcases hcase : (connected : Bool) with _ | _
      · rw [hcase] at hconn'
        cases hconn'
      · rw [hcase] at hconn'
        exact (Option.some.inj hconn').symm
    rw [hsame]
    exact ⟨s, hlookup.without hothers⟩

theorem safe_msgState {script : MsgStateScript} {msgId : UInt64}
    (h : ∀ e' now, Execution.Later e e' →
      Justified job e' (.redis (.evalMsgStateScript script msgId now))) :
    Safe (jobContract P job) (fun _ _ => True)
      (evalMsgState script msgId : Handler _) e := by
  apply Safe.bind safe_nowMs
  intro now e₁ hlater _
  apply Safe.bind
    (safe_redis fun e' hlater' => h e' now (hlater.trans hlater'))
  intro _ _ _ _ _ _
  trivial

/-- A push of a known record to the connection found for `uid`. -/
theorem safe_push {conn : Conn} {record : MessageRecord} {history : Bool}
    {uid : UInt64} {s : ServerState} (hknown : Known e.ledger record)
    (hlookup : LastLookup e job uid conn s)
    (huid : uid = record.toUid ∨ history = true ∧ uid = record.fromUid) :
    Safe (jobContract P job) (fun e' _ => LastLookup e' job uid conn s)
      ((createRecordPush record history).bind (sendEnvelope conn)) e := by
  apply Safe.bind (safe_keepsLookup (safe_createRecordPush record history)
    (avoids_lookup_createRecordPush record history) hlookup)
  rintro envelope e₁ hlater
    ⟨hlookup, push, hpayload, hid, hfrom, hto, hcontent, hhist⟩
  have hsend : Safe (jobContract P job) (fun _ _ => True)
      (sendEnvelope conn envelope) e₁ := by
    apply safe_sendPush hpayload
    intro e' hothers
    obtain ⟨m, hm, horigin, -⟩ := hknown.later (hlater.trans hothers.later)
    simp only [Message.origin, Prod.mk.injEq] at horigin
    refine ⟨m, uid, s, ?_, ?_, ?_, ?_, hlookup.without hothers, ?_⟩
    · rw [hid, hm]
    · rw [hfrom, horigin.1]
    · rw [hto, horigin.2.1]
    · rw [hcontent, horigin.2.2.1]
    · rw [hhist, ← horigin.1, ← horigin.2.1]
      exact huid
  apply (safe_keepsLookup hsend
    (avoids_lookup_perform (by intro uid h; cases h)) hlookup).weaken
  intro _ e' _ h
  exact h.1

theorem safe_pushAndMark {conn : Conn} {record : MessageRecord}
    {s : ServerState} (hknown : Known e.ledger record)
    (hlookup : LastLookup e job record.toUid conn s) :
    Safe (jobContract P job) (fun _ _ => True) (pushAndMark conn record) e := by
  have hmark : Safe (jobContract P job) (fun _ _ => True)
      (((createRecordPush record false).bind (sendEnvelope conn)).bind
        fun _ => (markDelivered record.msgId : Handler _).bind
          fun _ => .done true) e := by
    apply Safe.bind (safe_push hknown hlookup (.inl rfl))
    intro _ e₁ _ _
    apply Safe.bind (safe_msgState (by intro _ _ _; trivial))
    intro _ _ _ _ _ _
    trivial
  rw [bind_assoc] at hmark
  exact hmark

theorem safe_tryDeliverMessage {record : MessageRecord}
    (hknown : Known e.ledger record) :
    Safe (jobContract P job) (fun _ _ => True) (tryDeliverMessage record)
      e := by
  rw [tryDeliverMessage]
  split
  · intro _ _
    trivial
  · apply Safe.bind (safe_onlineTarget record.toUid)
    intro target e₁ hlater htarget
    rcases target with _ | conn
    · apply Safe.bind (safe_msgState (by intro _ _ _; trivial))
      intro _ _ _ _ _ _
      trivial
    · obtain ⟨s, hlookup⟩ := htarget conn rfl
      exact safe_pushAndMark (hknown.later hlater) hlookup

theorem safe_retryDeliverMessage {record : MessageRecord}
    (hknown : Known e.ledger record) :
    Safe (jobContract P job) (fun _ _ => True) (retryDeliverMessage record)
      e := by
  rw [retryDeliverMessage]
  split
  · intro _ _
    trivial
  · apply Safe.bind (safe_onlineTarget record.toUid)
    intro target e₁ hlater htarget
    rcases target with _ | conn
    · apply Safe.bind (safe_msgState (by intro _ _ _; trivial))
      intro _ _ _ _ _ _
      trivial
    · obtain ⟨s, hlookup⟩ := htarget conn rfl
      have hincrement : Safe (jobContract P job) (fun _ _ => True)
          (incrementRetryCount record.msgId : Handler _) e₁ := by
        apply Safe.bind (safe_redis (by intro _ _; trivial))
        intro _ _ _ _ _ _
        trivial
      have hquiet : Avoids (fun _ _ => True)
          (fun c => ∃ uid, c = .getConnByUid uid) (fun _ => True)
          (incrementRetryCount record.msgId : Handler _) := by
        apply (avoids_lookup_perform (by intro uid h; cases h)).bind
        intro _ _
        exact avoids_done.mpr trivial
      apply Safe.bind (safe_keepsLookup hincrement hquiet hlookup)
      rintro _ e₂ hlater' ⟨hlookup, -⟩
      exact safe_pushAndMark (hknown.later (hlater.trans hlater')) hlookup

theorem safe_deliverPendingMessages (uid : UInt64) :
    Safe (jobContract P job) (fun _ _ => True) (deliverPendingMessages uid)
      e := by
  apply Safe.bind (safe_getPendingMessages uid)
  intro records e₁ _ hrecords
  have hloop : Safe (jobContract P job) (fun _ _ => True)
      (forEach records fun record => do
        let _ ← tryDeliverMessage record
        pure ()) e₁ := by
    apply safe_forEach
    intro record hrecord e' hlater
    apply Safe.bind
      (safe_tryDeliverMessage ((hrecords record hrecord).later hlater))
    intro _ _ _ _ _ _
    trivial
  apply Safe.bind hloop
  intro _ _ _ _ _ _
  trivial

theorem safe_sendRecentMessages (uid limit : UInt64) :
    Safe (jobContract P job) (fun _ _ => True) (sendRecentMessages uid limit)
      e := by
  apply Safe.bind (safe_getRecentMessages uid limit)
  intro records e₁ _ hrecords
  apply Safe.bind (safe_onlineTarget uid)
  intro target e₂ hlater htarget
  rcases target with _ | conn
  · intro _ _
    trivial
  · obtain ⟨s, hlookup⟩ := htarget conn rfl
    have hloop : Safe (jobContract P job)
        (fun e' _ => LastLookup e' job uid conn s)
        (forEach records fun record => do
          let push ← createRecordPush record true
          sendEnvelope conn push) e₂ := by
      refine safe_forEach_keeps (fun e' => LastLookup e' job uid conn s) ?_ ?_
        hlookup
      · intro e₃ e₄ h hothers
        exact h.without hothers
      · intro record hrecord e' hlater' hlookup
        obtain ⟨hknown, huid⟩ := hrecords record hrecord
        refine safe_push (hknown.later (hlater.trans hlater')) hlookup ?_
        rcases huid with huid | huid
        · exact .inr ⟨rfl, huid.symm⟩
        · exact .inl huid.symm
    apply hloop.weaken
    intro _ _ _ _
    trivial

theorem safe_deliverLoginMessages (uid : UInt64) :
    Safe (jobContract P job) (fun _ _ => True) (deliverLoginMessages uid)
      e := by
  apply Safe.bind (safe_deliverPendingMessages uid)
  intro delivered e₁ _ _
  split
  · intro _ _
    trivial
  · exact safe_sendRecentMessages uid _

theorem safe_deliveryScan :
    Safe (jobContract P job) (fun _ _ => True) deliveryScan e := by
  apply Safe.bind safe_nowMs
  intro now e₁ _ _
  apply Safe.bind (safe_getTimeoutDeliveredMessages now _)
  intro records e₂ _ hrecords
  apply safe_forEach
  intro record hrecord e' hlater
  have hknown := (hrecords record hrecord).later hlater
  split
  · next hretry =>
      apply Safe.bind
      · apply safe_msgState
        intro e'' now hlater'
        obtain ⟨m, hm, -, hcount⟩ := hknown.later hlater'
        exact ⟨m, hm, le_trans hretry hcount⟩
      · intro _ _ _ _ _ _
        trivial
  · apply Safe.bind (safe_retryDeliverMessage hknown)
    intro _ _ _ _ _ _
    trivial

end Delivery

/-! ## Events -/

section Events

variable {e : ServerRun P} {job : Job} {conn : Conn} {envelope : Envelope}

theorem safe_handleLogin (hhandles : Handles job conn envelope) :
    Safe (jobContract P job) (fun _ _ => True) (handleLogin conn envelope)
      e := by
  have hbind : ∀ uid, Safe (jobContract P job) (fun _ _ => True)
      (bindLogin conn uid) e := by
    intro uid
    rw [bindLogin]
    split
    · intro _ _
      trivial
    · apply Safe.bind
      · apply safe_perform
        intro _ _
        exact ⟨envelope, hhandles⟩
      · intro _ _ _ _ _ _
        trivial
  apply Safe.bind (hbind _)
  intro result e₁ _ _
  apply Safe.bind (safe_createLoginResponse _ _ _)
  intro response e₂ _ hpayload
  have hsend : Safe (jobContract P job) (fun _ _ => True)
      (sendEnvelope conn response) e₂ := by
    apply safe_sendEnvelope
    intro e' _
    refine ⟨?_, ?_⟩
    · intro ack hack
      rw [hpayload] at hack
      cases hack
    · intro push hpush
      rw [hpayload] at hpush
      cases hpush
  apply Safe.bind hsend
  intro _ e₃ _ _
  split
  · exact safe_deliverLoginMessages _
  · intro _ _
    trivial

/-- What the store says about a creation: the answer is the message already
stored for the sender's client id or, if there was none, the new message. -/
theorem created_of_did {fromUid toUid now : UInt64}
    {content clientMsgId : Bytes} {answer : Option Reply} {s : ServerState}
    (h : Did e job (.redis (.evalCreateMessage fromUid toUid content
      clientMsgId now)) answer s)
    (hok : (readCreateReply answer).ok = true) :
    ∃ (m : Message) (e₂ : ServerRun P), Execution.Later e₂ e ∧
      e₂.ledger.find (readCreateReply answer).record.msgId = some m ∧
      m.clientKey = (fromUid, clientMsgId) ∧
      (readCreateReply answer).record =
        m.record (readCreateReply answer).record.msgId ∧
      (s.store.ledger.find (readCreateReply answer).record.msgId = some m ∨
        (¬∃ id m', s.store.ledger.find id = some m' ∧
          m'.clientKey = (fromUid, clientMsgId)) ∧
        m = .new fromUid toUid content clientMsgId now) := by
  obtain ⟨e₁, e₂, s', hs, h₁₂, h₂, heffect, hledger⟩ := h.effect
  cases heffect with
  | redisNotExecuted _ => cases hok
  | redisReplyLost _ => cases hok
  | redisAnswered _ =>
      subst hs
      have hafter : e₂.ledger = e₁.ledger.after (.evalCreateMessage fromUid
          toUid content clientMsgId now) := by
        rw [hledger]
        exact StoreDb.ledger_run _ _
      rcases run_create e₁.represents fromUid toUid content clientMsgId now
        with ⟨id, m, reply, hm, hkey, hrun, hreply⟩ |
          ⟨hfree, hroom, reply, db', hrun, hreply, -⟩ |
          ⟨-, -, reply, hrun, hreply⟩
      · simp only [StoreDb.run, hrun, hreply]
        refine ⟨m, e₂, h₂, ?_, hkey, rfl, .inl hm⟩
        rw [hafter, Ledger.after_create_taken ⟨id, m, hm, hkey⟩]
        exact hm
      · simp only [StoreDb.run, hrun, hreply]
        refine ⟨.new fromUid toUid content clientMsgId now, e₂, h₂, ?_, rfl,
          rfl, .inr ⟨hfree, rfl⟩⟩
        rw [hafter, Ledger.find_after_create_new hfree hroom]
        exact if_pos rfl
      · simp only [StoreDb.run, hrun, hreply] at hok
        cases hok

/-- The record that a creation returns is known. -/
theorem known_of_created {fromUid toUid now : UInt64}
    {content clientMsgId : Bytes} {answer : Option Reply} {s : ServerState}
    (h : Did e job (.redis (.evalCreateMessage fromUid toUid content
      clientMsgId now)) answer s)
    (hok : (readCreateReply answer).ok = true) :
    Known e.ledger (readCreateReply answer).record := by
  obtain ⟨m, e₂, hlater, hm, -, hrecord, -⟩ := created_of_did h hok
  rw [hrecord]
  exact (known_record hm).later hlater

theorem safe_createMessage {request : ChatRequest} {s : ServerState}
    (hhandles : Handles job conn envelope) (htype : envelope.type = .chatReq)
    (hrequest : envelope.chatReq? = some request)
    (hfrom : request.fromUid ≠ 0)
    (hdid : Did e job (.getUidByConn conn) request.fromUid s) :
    Safe (jobContract P job)
      (fun e' result => ∃ now answer s',
        Did e' job (.redis (.evalCreateMessage request.fromUid request.toUid
          request.content request.clientMsgId now)) answer s' ∧
        result = readCreateReply answer)
      (createMessage request.fromUid request.toUid request.content
        request.clientMsgId : Handler _) e := by
  apply Safe.bind safe_nowMs
  intro now e₁ hlater _
  apply Safe.bind
  · apply safe_redis
    intro e' hlater'
    exact ⟨conn, envelope, s, hhandles, htype, hrequest, hfrom,
      hdid.mono (hlater.trans hlater')⟩
  · rintro answer e₂ - ⟨s', hcreate⟩ e₃ hothers
    exact ⟨now, answer, s', hcreate.mono hothers.later, rfl⟩

theorem safe_storeAndDeliver {request : ChatRequest} {s : ServerState}
    (hhandles : Handles job conn envelope) (htype : envelope.type = .chatReq)
    (hrequest : envelope.chatReq? = some request)
    (hfrom : request.fromUid ≠ 0)
    (hdid : Did e job (.getUidByConn conn) request.fromUid s) :
    Safe (jobContract P job) (fun _ _ => True)
      (storeAndDeliver conn envelope.seq request) e := by
  apply Safe.bind
    (safe_createMessage hhandles htype hrequest hfrom hdid)
  rintro result e₁ - ⟨now, answer, s', hcreate, rfl⟩
  have hack : ∀ (e₂ : ServerRun P) (ackEnvelope : Envelope) (reason : Bytes),
      Execution.Later e₁ e₂ → (readCreateReply answer).ok = true →
      ackEnvelope.payload = some (.ack
        { msgId := (readCreateReply answer).record.msgId, seq := envelope.seq,
          ok := true, reason }) →
      Safe (jobContract P job) (fun _ _ => True)
        (sendEnvelope conn ackEnvelope) e₂ := by
    intro e₂ ackEnvelope reason hlater hok hpayload
    apply safe_sendAck hpayload
    intro e' hlater'
    exact ⟨envelope, hhandles, rfl, nofun, fun _ => ⟨htype, request, now, answer,
      s', hrequest, hcreate.mono (hlater.trans hlater'), hok, rfl⟩⟩
  split
  · exact safe_sendErrorAck hhandles
  · next hok =>
      rw [Bool.not_eq_false] at hok
      split
      · apply Safe.bind (safe_createAck _ _ _ _)
        intro ackEnvelope e₂ hlater hpayload
        exact hack e₂ ackEnvelope _ hlater hok hpayload
      · apply Safe.bind (safe_tryDeliverMessage (known_of_created hcreate hok))
        intro _ e₂ hlater _
        apply Safe.bind (safe_createAck _ _ _ _)
        intro ackEnvelope e₃ hlater' hpayload
        exact hack e₃ ackEnvelope _ (hlater.trans hlater') hok hpayload

theorem safe_handleChat (hhandles : Handles job conn envelope)
    (htype : envelope.type = .chatReq) :
    Safe (jobContract P job) (fun _ _ => True) (handleChat conn envelope)
      e := by
  rw [handleChat]
  split
  · exact safe_sendErrorAck hhandles
  · next request hrequest =>
      apply Safe.bind (safe_perform (by intro _ _; trivial))
      rintro uid e₁ - ⟨s, hdid⟩
      split
      · exact safe_sendErrorAck hhandles
      · next huid =>
          split
          · exact safe_sendErrorAck hhandles
          · next hfrom =>
              rw [not_not] at hfrom
              subst hfrom
              exact safe_storeAndDeliver hhandles htype hrequest huid hdid

theorem safe_handleAck (hhandles : Handles job conn envelope)
    (htype : envelope.type = .ack) :
    Safe (jobContract P job) (fun _ _ => True) (handleAck conn envelope)
      e := by
  rw [handleAck]
  split
  · intro _ _
    trivial
  · next ack hack =>
      split
      · intro _ _
        trivial
      · apply Safe.bind (safe_perform (by intro _ _; trivial))
        rintro uid e₁ - ⟨s, hdid⟩
        split
        · intro _ _
          trivial
        · next huid =>
            have hmark : Safe (jobContract P job) (fun _ _ => True)
                (markAcked ack.msgId uid : Handler _) e₁ := by
              apply Safe.bind safe_nowMs
              intro now e₂ hlater _
              apply Safe.bind
              · apply safe_redis
                intro e' hlater'
                exact ⟨conn, envelope, ack, s, hhandles, htype, hack, rfl, huid,
                  hdid.mono (hlater.trans hlater')⟩
              · intro _ _ _ _ _ _
                trivial
            apply Safe.bind hmark
            intro _ _ _ _ _ _
            trivial

/-- Every job runs code whose commands are justified. -/
theorem safe_code (job : Job) (e : ServerRun P) :
    Safe (jobContract P job) (fun _ _ => True) job.code e := by
  rw [Job.code]
  split
  · next event hevent =>
      rcases event with ⟨conn, envelope⟩ | conn
      · have hhandles : Handles job conn envelope := hevent
        simp only [handle]
        split
        · exact safe_handleLogin hhandles
        · next htype => exact safe_handleChat hhandles htype
        · next htype => exact safe_handleAck hhandles htype
        · apply (safe_perform (by intro _ _; trivial)).weaken
          intro _ _ _ _
          trivial
        · exact safe_sendErrorAck hhandles
      · apply (safe_perform (by intro _ _; trivial)).weaken
        intro _ _ _ _
        trivial
  · exact safe_deliveryScan

end Events

/-- In every run, a command about to be issued is justified. -/
theorem justified_of_running {e : ServerRun P} {t : Thread} {job : Job}
    {command : Command} {next : command.Answer → Handler Unit}
    (h : e.state.running t = some (job, .call command next)) :
    Justified job e command :=
  (serverThreads P).pre_of_performs (fun e job => safe_code job e) h

/-- In every run, a command that is issued is justified. -/
theorem justified_of_next {e e' : ServerRun P} {t : Thread} {job : Job}
    {command : Command} {answer : command.Answer}
    (h : Execution.Next e (.execute t job command answer) e') :
    Justified job e command := by
  have hstep : ServerStep P e.state (.execute t job command answer)
      e'.state := h.1
  obtain ⟨next, s', hrunning, -, -⟩ := hstep.execute_inv
  exact justified_of_running hrunning

/-- A negative acknowledgement names no message. -/
theorem refusal_unnumbered {e e' : ServerRun P} {t : Thread} {job : Job}
    {conn : Conn} {envelope : Envelope} {ack : Ack}
    (hsend : Execution.Next e
      (.execute t job (.sendEnvelope conn envelope) ()) e')
    (hack : envelope.payload = some (.ack ack)) (hok : ack.ok = false) :
    ack.msgId = 0 := by
  obtain ⟨hacks, -⟩ : Justified job e (.sendEnvelope conn envelope) :=
    justified_of_next hsend
  obtain ⟨-, -, -, hunnumbered, -⟩ := hacks ack hack
  exact hunnumbered hok

/-- A push carries a message of the ledger, to the connection found for its receiver or,
with the history, for its sender. -/
theorem message_of_push {e₁ e₂ e : ServerRun P} {t : Thread} {job : Job} {conn : Conn}
    {envelope : Envelope} {push : ChatPush}
    (hsend : Execution.Next e₁
      (.execute t job (.sendEnvelope conn envelope) ()) e₂)
    (hlater : Execution.Later e₂ e)
    (hpush : envelope.payload = some (.chatPush push)) :
    ∃ m uid s, e.ledger.find push.msgId = some m ∧ push.fromUid = m.fromUid ∧
      push.toUid = m.toUid ∧ push.content = m.content ∧
      LastLookup e₁ job uid conn s ∧
      (uid = m.toUid ∨ push.history = true ∧ uid = m.fromUid) := by
  obtain ⟨-, hpushes⟩ : Justified job e₁ (.sendEnvelope conn envelope) :=
    justified_of_next hsend
  obtain ⟨m, uid, s, hm, hfrom, hto, hcontent, hlookup, huid⟩ := hpushes push hpush
  obtain ⟨m', hm', horigin, -⟩ :=
    (ServerRun.extends_later (hsend.later.trans hlater)).2 _ m hm
  simp only [Message.origin, Prod.mk.injEq] at horigin
  obtain ⟨hfrom', hto', hcontent', -⟩ := horigin
  refine ⟨m', uid, s, hm', ?_, ?_, ?_, hlookup, ?_⟩
  · rw [hfrom, hfrom']
  · rw [hto, hto']
  · rw [hcontent, hcontent']
  · rw [hfrom', hto']
    exact huid

end ReliableDelivery
