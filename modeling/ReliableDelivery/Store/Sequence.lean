import ReliableDelivery.Store.Answers
import ReliableDelivery.Support.Interleaving

/-!
# Sequences of store operations

One caller and one database that starts empty.  A run is any finite sequence of
the six operations that write, with any arguments and any clock readings.  The
two main results are about all such runs: creation is idempotent
(`createMessage_idempotent`), and the indexes agree with the message hashes
(`indexes_consistent`).
-/

namespace ReliableDelivery

open Decimal Redis TransitionSystem

/-- A caller whose requests are executed at once.  The clock reading is fixed
for the duration of one call. -/
abbrev Sequential := ReaderT UInt64 (StateM Db)

instance : RedisClient Sequential where
  command request := fun _ db => (some (request.run db).1, (request.run db).2)
  nowMs := fun now db => (now, db)

/-- A call of one of the operations that write. -/
inductive StoreOp where
  | createMessage (fromUid toUid : UInt64) (content clientMsgId : Bytes)
  | markDelivered (msgId : UInt64)
  | markPending (msgId : UInt64)
  | markAcked (msgId ackUid : UInt64)
  | markFailed (msgId : UInt64)
  | incrementRetryCount (msgId : UInt64)
  deriving DecidableEq, Repr

inductive StoreResult where
  | created (result : CreateMessageResult)
  | updated (done : Bool)
  deriving DecidableEq, Repr

def StoreOp.call : StoreOp → Sequential StoreResult
  | .createMessage fromUid toUid content clientMsgId => do
      let result ← MessageStore.createMessage fromUid toUid content clientMsgId
      pure (.created result)
  | .markDelivered msgId => do
      let done ← MessageStore.markDelivered msgId
      pure (.updated done)
  | .markPending msgId => do
      let done ← MessageStore.markPending msgId
      pure (.updated done)
  | .markAcked msgId ackUid => do
      let done ← MessageStore.markAcked msgId ackUid
      pure (.updated done)
  | .markFailed msgId => do
      let done ← MessageStore.markFailed msgId
      pure (.updated done)
  | .incrementRetryCount msgId => do
      let done ← MessageStore.incrementRetryCount msgId
      pure (.updated done)

/-- Result and database after a call made when the clock shows `now`. -/
def StoreOp.perform (op : StoreOp) (now : UInt64) (db : Db) : StoreResult × Db :=
  op.call now db

/-- A call that has returned. -/
structure StoreCall where
  op : StoreOp
  now : UInt64
  result : StoreResult

/-- All sequences of calls on an initially empty database. -/
def storeRuns : TransitionSystem Db StoreCall where
  init db := db = .empty
  step db call db' := call.op.perform call.now db = (call.result, db')

/-! ## One call -/

/-- The request a call sends. -/
def StoreOp.request (now : UInt64) : StoreOp → RedisRequest
  | .createMessage fromUid toUid content clientMsgId =>
      .evalCreateMessage fromUid toUid content clientMsgId now
  | .markDelivered msgId => .evalMsgStateScript .markDelivered msgId now
  | .markPending msgId => .evalMsgStateScript .markPending msgId now
  | .markAcked msgId ackUid => .evalMarkAckedScript msgId ackUid now
  | .markFailed msgId => .evalMsgStateScript .markFailed msgId now
  | .incrementRetryCount msgId => .evalIncrementRetryScript msgId

/-- What a call makes of the reply. -/
def StoreOp.read (reply : Option Reply) : StoreOp → StoreResult
  | .createMessage _ _ _ _ => .created (MessageStore.readCreateReply reply)
  | _ => .updated (replyIsTrue reply)

theorem StoreOp.perform_eq (op : StoreOp) (now : UInt64) (db : Db) :
    op.perform now db =
      (op.read (some ((op.request now).run db).1),
        ((op.request now).run db).2) := by
  cases op <;> rfl

section OneCall

variable {db db' : Db} {L : Ledger} {call : StoreCall}

theorem step_run (h : storeRuns.step db call db') :
    call.result = call.op.read (some ((call.op.request call.now).run db).1) ∧
      db' = ((call.op.request call.now).run db).2 := by
  have hperform : call.op.perform call.now db = (call.result, db') := h
  rw [StoreOp.perform_eq, Prod.mk.injEq] at hperform
  exact ⟨hperform.1.symm, hperform.2.symm⟩

/-- The ledger after a call. -/
theorem step_represents (h : storeRuns.step db call db')
    (hL : Represents (entriesOf db) L) :
    Represents (entriesOf db') (L.after (call.op.request call.now)) := by
  rw [(step_run h).2]
  exact hL.after _

/-- A call that returns false, or reports that it failed, has written
nothing. -/
theorem step_refused (h : storeRuns.step db call db')
    (hL : Represents (entriesOf db) L)
    (hresult : call.result = .updated false ∨
      ∃ r, call.result = .created r ∧ r.ok = false) : db' = db := by
  obtain ⟨hread, hdb⟩ := step_run h
  obtain ⟨op, now, result⟩ := call
  simp only at hread hdb hresult
  have hstate : ∀ script msgId,
      ((RedisRequest.evalMsgStateScript script msgId now).run db).2 = db ∨
        replyIsTrue (some ((RedisRequest.evalMsgStateScript script msgId
          now).run db).1) = true := by
    intro script msgId
    rcases run_msgState hL script msgId now with
      ⟨m, db₁, -, hrun, -⟩ | ⟨-, hrun⟩
    · rw [hrun]
      exact .inr rfl
    · rw [hrun]
      exact .inl rfl
  have hdone : ∀ reply, StoreResult.updated (replyIsTrue reply) = result →
      replyIsTrue reply = true → False := by
    intro reply hreply htrue
    rw [← hreply, htrue] at hresult
    rcases hresult with hfalse | ⟨r, hr, -⟩
    · cases hfalse
    · cases hr
  rw [hdb]
  cases op with
  | createMessage fromUid toUid content clientMsgId =>
      simp only [StoreOp.read, StoreOp.request] at hread ⊢
      have hfailed : ∀ r, result = .created r → r.ok = false := by
        intro r hr
        rcases hresult with hfalse | ⟨r', hr', hok⟩
        · rw [hr] at hfalse
          cases hfalse
        · rw [hr, StoreResult.created.injEq] at hr'
          rw [hr']
          exact hok
      rcases run_create hL fromUid toUid content clientMsgId now with
        ⟨id, m, reply, -, -, hrun, -⟩ | ⟨-, -, reply, db₁, hrun, hreply, -⟩ |
        ⟨-, -, reply, hrun, -⟩
      · rw [hrun]
      · rw [hrun, hreply] at hread
        have hok := hfailed _ hread
        simp at hok
      · rw [hrun]
  | markDelivered msgId =>
      exact (hstate .markDelivered msgId).resolve_right (hdone _ hread.symm)
  | markPending msgId =>
      exact (hstate .markPending msgId).resolve_right (hdone _ hread.symm)
  | markFailed msgId =>
      exact (hstate .markFailed msgId).resolve_right (hdone _ hread.symm)
  | markAcked msgId ackUid =>
      rcases run_markAcked hL msgId ackUid now with
        ⟨m, db₁, -, -, hrun, -⟩ | ⟨-, hrun⟩
      · simp only [StoreOp.read, StoreOp.request, hrun] at hread
        exact absurd rfl (hdone _ hread.symm)
      · simp only [StoreOp.request, hrun]
  | incrementRetryCount msgId =>
      rcases run_incrementRetry hL msgId with
        ⟨m, db₁, -, -, hrun, -⟩ | ⟨-, reply, -, hrun⟩
      · simp only [StoreOp.read, StoreOp.request, hrun] at hread
        exact absurd rfl (hdone _ hread.symm)
      · simp only [StoreOp.request, hrun]

/-- The three outcomes of a creation. -/
theorem step_create {fromUid toUid now : UInt64} {content clientMsgId : Bytes}
    {r : CreateMessageResult}
    (h : storeRuns.step db
      ⟨.createMessage fromUid toUid content clientMsgId, now, .created r⟩ db')
    (hL : Represents (entriesOf db) L) :
    (∃ id m, L.find id = some m ∧ m.clientKey = (fromUid, clientMsgId) ∧
      db' = db ∧ r = { record := m.record id, created := false, ok := true }) ∨
    (¬L.Taken (fromUid, clientMsgId) ∧ L.count + 1 < 2 ^ 63 ∧
      r = { record := (Message.new fromUid toUid content clientMsgId
              now).record L.nextId,
            created := true, ok := true }) ∨
    (¬L.Taken (fromUid, clientMsgId) ∧ ¬L.count + 1 < 2 ^ 63 ∧ db' = db ∧
      r = {}) := by
  obtain ⟨hread, hdb⟩ := step_run h
  simp only [StoreOp.read, StoreOp.request, StoreResult.created.injEq]
    at hread hdb
  rcases run_create hL fromUid toUid content clientMsgId now with
    ⟨id, m, reply, hm, hkey, hrun, hreply⟩ |
    ⟨hfree, hroom, reply, db₁, hrun, hreply, -⟩ |
    ⟨hfree, hroom, reply, hrun, hreply⟩
  · rw [hrun] at hread hdb
    exact .inl ⟨id, m, hm, hkey, hdb, hread.trans hreply⟩
  · rw [hrun] at hread
    exact .inr (.inl ⟨hfree, hroom, hread.trans hreply⟩)
  · rw [hrun] at hread hdb
    exact .inr (.inr ⟨hfree, hroom, hdb, hread.trans hreply⟩)

end OneCall

/-! ## Whole runs -/

/-- The call created a message. -/
def StoreCall.creates (call : StoreCall) : Bool :=
  match call.result with
  | .created r => r.created
  | .updated _ => false

/-- The step from `e` to `e'` is a creation for this sender and client id,
answered by `r`. -/
def Creates (e : storeRuns.Execution) (fromUid : UInt64) (clientMsgId : Bytes)
    (r : CreateMessageResult) (e' : storeRuns.Execution) : Prop :=
  ∃ toUid content now,
    e.Next ⟨.createMessage fromUid toUid content clientMsgId, now, .created r⟩
      e'

/-- A creation for this sender and client id has been called and answered
by `r`. -/
def Created (e : storeRuns.Execution) (fromUid : UInt64) (clientMsgId : Bytes)
    (r : CreateMessageResult) : Prop :=
  ∃ db toUid content now,
    (db, ⟨.createMessage fromUid toUid content clientMsgId, now, .created r⟩) ∈
      e.history

/-- How the ledger relates to the calls made so far. -/
structure Explains (L : Ledger) (e : storeRuns.Execution) : Prop where
  represents : Represents (entriesOf e.state) L
  answered : ∀ fromUid clientMsgId r, Created e fromUid clientMsgId r →
    r.ok = true →
      ∃ m, L.find r.record.msgId = some m ∧ m.clientKey = (fromUid, clientMsgId)
  refused : ∀ fromUid clientMsgId r, Created e fromUid clientMsgId r →
    r.ok = false → ¬L.count + 1 < 2 ^ 63
  called : ∀ id m, L.find id = some m →
    ∃ r, Created e m.fromUid m.clientMsgId r
  counted : L.count = (e.history.filter fun s => s.2.creates).length

theorem Created.mono {e e' : storeRuns.Execution} {fromUid : UInt64}
    {clientMsgId : Bytes} {r : CreateMessageResult} (h : e.Later e')
    (hcreated : Created e fromUid clientMsgId r) :
    Created e' fromUid clientMsgId r := by
  obtain ⟨db, toUid, content, now, hmem⟩ := hcreated
  exact ⟨db, toUid, content, now, h.mem_history hmem⟩

theorem Creates.created {e e' : storeRuns.Execution} {fromUid : UInt64}
    {clientMsgId : Bytes} {r : CreateMessageResult}
    (h : Creates e fromUid clientMsgId r e') :
    Created e' fromUid clientMsgId r := by
  obtain ⟨toUid, content, now, hnext⟩ := h
  exact ⟨e.state, toUid, content, now, hnext.mem_history⟩

/-- A creation in the longer history is the last call or an earlier one. -/
theorem created_next {e e' : storeRuns.Execution} {call : StoreCall}
    (hnext : e.Next call e') {fromUid : UInt64} {clientMsgId : Bytes}
    {r : CreateMessageResult} (h : Created e' fromUid clientMsgId r) :
    Created e fromUid clientMsgId r ∨
      ∃ toUid content now, call =
        ⟨.createMessage fromUid toUid content clientMsgId, now, .created r⟩ := by
  obtain ⟨db, toUid, content, now, hmem⟩ := h
  rw [hnext.2, List.mem_cons] at hmem
  rcases hmem with heq | hmem
  · exact .inr ⟨toUid, content, now, (congrArg Prod.snd heq).symm⟩
  · exact .inl ⟨db, toUid, content, now, hmem⟩

/-- A found message keeps its id and its client key. -/
theorem Ledger.Extends.clientKey {L L' : Ledger} (h : L.Extends L')
    {id : UInt64} {m : Message} (hm : L.find id = some m) :
    ∃ m', L'.find id = some m' ∧ m'.clientKey = m.clientKey := by
  obtain ⟨m', hm', horigin, -⟩ := h.2 id m hm
  exact ⟨m', hm', Message.clientKey_eq_of_origin_eq horigin⟩

/-- A call other than a creation adds no message. -/
theorem find_after_update {L : Ledger} {op : StoreOp} {now : UInt64}
    (hop : ∀ f t c k, op ≠ .createMessage f t c k) {id : UInt64} {m : Message}
    (hm : (L.after (op.request now)).find id = some m) :
    ∃ m', L.find id = some m' ∧ m.clientKey = m'.clientKey := by
  rcases Ledger.find_after_cases hm with
    hsame | ⟨f, t, c, k, now', hrequest, -⟩ |
    ⟨m', script, now', -, hm', rfl⟩ | ⟨m', now', -, hm', rfl⟩ |
    ⟨m', -, hm', rfl⟩
  · exact ⟨m, hsame, rfl⟩
  · rcases op with _ | _ | _ | _ | _ | _
    · exact absurd rfl (hop _ _ _ _)
    all_goals cases hrequest
  · exact ⟨m', hm', Message.clientKey_eq_of_origin_eq
      ((script.change now').origin m')⟩
  · exact ⟨m', hm', rfl⟩
  · exact ⟨m', hm', rfl⟩

theorem count_after_update {L : Ledger} {op : StoreOp} {now : UInt64}
    (hop : ∀ f t c k, op ≠ .createMessage f t c k) :
    (L.after (op.request now)).count = L.count := by
  cases op with
  | createMessage f t c k => exact absurd rfl (hop f t c k)
  | _ => rfl

theorem explains_update {L : Ledger} {e e' : storeRuns.Execution}
    {call : StoreCall} (h : Explains L e) (hnext : e.Next call e')
    (hop : ∀ f t c k, call.op ≠ .createMessage f t c k) :
    Explains (L.after (call.op.request call.now)) e' := by
  have hcall : ∀ f k r, Created e' f k r → Created e f k r := by
    intro f k r hcreated
    rcases created_next hnext hcreated with hold | ⟨t, c, now, rfl⟩
    · exact hold
    · exact absurd rfl (hop f t c k)
  have hextends := L.extends_after (call.op.request call.now)
  refine ⟨step_represents hnext.1 h.represents, ?_, ?_, ?_, ?_⟩
  · intro f k r hcreated hok
    obtain ⟨m, hm, hkey⟩ := h.answered f k r (hcall f k r hcreated) hok
    obtain ⟨m', hm', hkey'⟩ := hextends.clientKey hm
    exact ⟨m', hm', hkey'.trans hkey⟩
  · intro f k r hcreated hok
    rw [count_after_update hop]
    exact h.refused f k r (hcall f k r hcreated) hok
  · intro id m hm
    obtain ⟨m', hm', hkey⟩ := find_after_update hop hm
    simp only [Message.clientKey, Prod.mk.injEq] at hkey
    obtain ⟨r, hr⟩ := h.called id m' hm'
    rw [hkey.1, hkey.2]
    exact ⟨r, hr.mono hnext.later⟩
  · have hcreates : call.creates = false := by
      have hresult := (step_run hnext.1).1
      rw [StoreCall.creates, hresult]
      cases hcase : call.op with
      | createMessage f t c k => exact absurd hcase (hop f t c k)
      | _ => rfl
    rw [count_after_update hop, h.counted, hnext.2,
      List.filter_cons_of_neg (by simp [hcreates])]

theorem explains_create {L : Ledger} {e e' : storeRuns.Execution}
    {fromUid toUid now : UInt64} {content clientMsgId : Bytes}
    {r : CreateMessageResult} (h : Explains L e)
    (hnext : e.Next
      ⟨.createMessage fromUid toUid content clientMsgId, now, .created r⟩ e') :
    Explains (L.after (.evalCreateMessage fromUid toUid content clientMsgId
      now)) e' := by
  have hrep := step_represents hnext.1 h.represents
  simp only [StoreOp.request] at hrep
  have hlast : Created e' fromUid clientMsgId r :=
    ⟨e.state, toUid, content, now, hnext.mem_history⟩
  have hcall : ∀ f k r', Created e' f k r' → Created e f k r' ∨
      (f = fromUid ∧ k = clientMsgId ∧ r' = r) := by
    intro f k r' hcreated
    rcases created_next hnext hcreated with hold | ⟨t, c, n, heq⟩
    · exact .inl hold
    · simp only [StoreCall.mk.injEq, StoreOp.createMessage.injEq,
        StoreResult.created.injEq] at heq
      exact .inr ⟨heq.1.1.symm, heq.1.2.2.2.symm, heq.2.2.symm⟩
  have hextends := L.extends_after
    (.evalCreateMessage fromUid toUid content clientMsgId now)
  have hanswered : ∀ f k r', Created e f k r' → r'.ok = true →
      ∃ m, (L.after (.evalCreateMessage fromUid toUid content clientMsgId
        now)).find r'.record.msgId = some m ∧ m.clientKey = (f, k) := by
    intro f k r' hold hok
    obtain ⟨m, hm, hkey⟩ := h.answered f k r' hold hok
    obtain ⟨m', hm', hkey'⟩ := hextends.clientKey hm
    exact ⟨m', hm', hkey'.trans hkey⟩
  have hcalled : ∀ id m, L.find id = some m →
      ∃ r', Created e' m.fromUid m.clientMsgId r' := by
    intro id m hm
    obtain ⟨r', hr'⟩ := h.called id m hm
    exact ⟨r', hr'.mono hnext.later⟩
  rcases step_create hnext.1 h.represents with
    ⟨id, m, hm, hkey, -, hr⟩ | ⟨hfree, hroom, hr⟩ | ⟨hfree, hroom, -, hr⟩
  · have htaken : L.Taken (fromUid, clientMsgId) := ⟨id, m, hm, hkey⟩
    rw [Ledger.after_create_taken htaken] at hrep hanswered ⊢
    refine ⟨hrep, ?_, ?_, hcalled, ?_⟩
    · intro f k r' hcreated hok
      rcases hcall f k r' hcreated with hold | ⟨rfl, rfl, rfl⟩
      · exact hanswered f k r' hold hok
      · rw [hr]
        exact ⟨m, hm, hkey⟩
    · intro f k r' hcreated hok
      rcases hcall f k r' hcreated with hold | ⟨rfl, rfl, rfl⟩
      · exact h.refused f k r' hold hok
      · rw [hr] at hok
        cases hok
    · rw [h.counted, hnext.2,
        List.filter_cons_of_neg (by simp [StoreCall.creates, hr])]
  · refine ⟨hrep, ?_, ?_, ?_, ?_⟩
    · intro f k r' hcreated hok
      rcases hcall f k r' hcreated with hold | ⟨rfl, rfl, rfl⟩
      · exact hanswered f k r' hold hok
      · refine ⟨.new f toUid content k now, ?_, rfl⟩
        rw [Ledger.find_after_create_new hfree hroom, hr]
        exact if_pos rfl
    · intro f k r' hcreated hok
      rcases hcall f k r' hcreated with hold | ⟨rfl, rfl, rfl⟩
      · exact absurd hroom (h.refused f k r' hold hok)
      · rw [hr] at hok
        cases hok
    · intro id m hm
      rw [Ledger.find_after_create_new hfree hroom] at hm
      split at hm
      · rw [Option.some.injEq] at hm
        rw [← hm]
        exact ⟨r, hlast⟩
      · exact hcalled id m hm
    · rw [Ledger.count_after_create_new hfree hroom, hnext.2,
        List.filter_cons_of_pos (by simp [StoreCall.creates, hr]),
        List.length_cons, ← h.counted]
  · rw [Ledger.after_create_full hroom] at hrep hanswered ⊢
    refine ⟨hrep, ?_, ?_, hcalled, ?_⟩
    · intro f k r' hcreated hok
      rcases hcall f k r' hcreated with hold | ⟨rfl, rfl, rfl⟩
      · exact hanswered f k r' hold hok
      · rw [hr] at hok
        cases hok
    · intro f k r' hcreated hok
      rcases hcall f k r' hcreated with hold | ⟨rfl, rfl, rfl⟩
      · exact h.refused f k r' hold hok
      · exact hroom
    · rw [h.counted, hnext.2,
        List.filter_cons_of_neg (by simp [StoreCall.creates, hr])]

/-- In every run the database represents a ledger that explains the calls. -/
theorem exists_explains (e : storeRuns.Execution) : ∃ L, Explains L e := by
  apply Execution.induct (P := fun e => ∃ L, Explains L e)
  · intro e hnil hinit
    have hempty : e.state = .empty := hinit
    refine ⟨.empty, ?_, ?_, ?_, ?_, ?_⟩
    · rw [hempty]
      exact represents_empty
    · rintro f k r ⟨db, t, c, now, hmem⟩
      rw [hnil] at hmem
      cases hmem
    · rintro f k r ⟨db, t, c, now, hmem⟩
      rw [hnil] at hmem
      cases hmem
    · intro id m hm
      cases hm
    · rw [hnil]
      rfl
  · intro e e' call hL hnext
    obtain ⟨L, hL⟩ := hL
    by_cases hop : ∀ f t c k, call.op ≠ .createMessage f t c k
    · exact ⟨_, explains_update hL hnext hop⟩
    · push Not at hop
      obtain ⟨f, t, c, k, hop⟩ := hop
      have hresult := (step_run hnext.1).1
      obtain ⟨op, now, result⟩ := call
      simp only at hop hresult
      subst hop
      simp only [StoreOp.read] at hresult
      subst hresult
      exact ⟨_, explains_create hL hnext⟩

/-- One further call. -/
def call (e : storeRuns.Execution) (op : StoreOp) (now : UInt64) :
    storeRuns.Execution :=
  e.extend (l := ⟨op, now, (op.perform now e.state).1⟩)
    (s := (op.perform now e.state).2) rfl

theorem next_call (e : storeRuns.Execution) (op : StoreOp) (now : UInt64) :
    e.Next ⟨op, now, (op.perform now e.state).1⟩ (call e op now) :=
  e.next_extend _

/-- No call yet. -/
def noCalls : storeRuns.Execution :=
  ⟨[], .empty, .init rfl⟩

/-! ## Idempotent creation -/

/-- The record a reader is given now. -/
def currentRecord (db : Db) (msgId : UInt64) : Option MessageRecord :=
  ((MessageStore.getMessage msgId : Sequential _) 0 db).1

theorem currentRecord_eq {db : Db} {L : Ledger} {id : UInt64} {m : Message}
    (hL : Represents (entriesOf db) L) (hm : L.find id = some m) :
    currentRecord db id = some (m.record id) := by
  have hpos := ((L.numbered id).mp (by rw [hm]; rfl)).1
  have hid : id ≠ 0 := by
    rintro rfl
    exact absurd hpos (by decide)
  obtain ⟨reply, hrun, hread⟩ := run_hmgetRecord hL id
  have hcurrent : currentRecord db id =
      MessageStore.readRecordReply
        (some ((RedisRequest.hmgetRecord id).run db).1) := by
    simp only [currentRecord, MessageStore.getMessage,
      MessageStore.fetchRecord, if_neg hid]
    rfl
  rw [hcurrent, hrun, hread, hm]
  rfl

/-- Creation is idempotent in the sender and the client id.  Of two creations
that return an id, the ids agree exactly when sender and client id agree, and
new ids increase.  A creation makes a message exactly if it is the first with
its sender and client id.  One that makes none writes nothing, and returns the
message as it is now.  None fails unless all ids have been handed out. -/
theorem createMessage_idempotent :
    (∀ e₁ e₂ e₃ e₄ fromUid clientMsgId fromUid' clientMsgId' r r',
      Creates e₁ fromUid clientMsgId r e₂ → e₂.Later e₃ →
      Creates e₃ fromUid' clientMsgId' r' e₄ → r.ok = true → r'.ok = true →
        (r.record.msgId = r'.record.msgId ↔
          fromUid = fromUid' ∧ clientMsgId = clientMsgId') ∧
        (r.created = true → r'.created = true →
          r.record.msgId < r'.record.msgId)) ∧
    (∀ e e' fromUid clientMsgId r, Creates e fromUid clientMsgId r e' →
      r.ok = true →
        (r.created = true ↔ ¬∃ r', Created e fromUid clientMsgId r')) ∧
    (∀ e e' fromUid clientMsgId r, Creates e fromUid clientMsgId r e' →
      r.created = false →
        e'.state = e.state ∧
        (r.ok = true → currentRecord e.state r.record.msgId = some r.record)) ∧
    (∀ e e' fromUid clientMsgId r, Creates e fromUid clientMsgId r e' →
      r.ok = false →
        (e.history.filter fun s => s.2.creates).length = 2 ^ 63 - 1) := by
  refine ⟨?_, ?_, ?_, ?_⟩
  · intro e₁ e₂ e₃ e₄ f k f' k' r r' hfirst hlater hsecond hok hok'
    obtain ⟨L, hL⟩ := exists_explains e₃
    obtain ⟨L', hL'⟩ := exists_explains e₄
    have hnext : e₃.Later e₄ := by
      obtain ⟨t, c, now, hnext⟩ := hsecond
      exact hnext.later
    have hbefore : Created e₃ f k r := hfirst.created.mono hlater
    obtain ⟨m, hm, hkey⟩ := hL'.answered f k r (hbefore.mono hnext) hok
    obtain ⟨m', hm', hkey'⟩ := hL'.answered f' k' r' hsecond.created hok'
    constructor
    · constructor
      · intro hid
        rw [hid, hm', Option.some.injEq] at hm
        rw [← hm, hkey', Prod.mk.injEq] at hkey
        exact ⟨hkey.1.symm, hkey.2.symm⟩
      · rintro ⟨rfl, rfl⟩
        exact L'.distinct _ _ m m' hm hm' (hkey.trans hkey'.symm)
    · intro _ hcreated'
      obtain ⟨t, c, now, hstep⟩ := hsecond
      obtain ⟨m₀, hm₀, -⟩ := hL.answered f k r hbefore hok
      have hle : r.record.msgId.toNat ≤ L.count :=
        ((L.numbered _).mp (by rw [hm₀]; rfl)).2
      rcases step_create hstep.1 hL.represents with
        ⟨id, m, -, -, -, hr⟩ | ⟨-, -, hr⟩ | ⟨-, -, -, hr⟩
      · rw [hr] at hcreated'
        cases hcreated'
      · have hid : r'.record.msgId = L.nextId := by
          rw [hr]
          rfl
        rw [UInt64.lt_iff_toNat_lt, hid, L.nextId_toNat]
        omega
      · rw [hr] at hcreated'
        cases hcreated'
  · intro e e' f k r hcreates hok
    obtain ⟨L, hL⟩ := exists_explains e
    obtain ⟨t, c, now, hstep⟩ := hcreates
    rcases step_create hstep.1 hL.represents with
      ⟨id, m, hm, hkey, -, hr⟩ | ⟨hfree, hroom, hr⟩ | ⟨-, -, -, hr⟩
    · simp only [Message.clientKey, Prod.mk.injEq] at hkey
      have hcalled := hL.called id m hm
      rw [hkey.1, hkey.2] at hcalled
      simp [hr, hcalled]
    · have hfirst : ¬∃ r', Created e f k r' := by
        rintro ⟨r', hr'⟩
        by_cases hok' : r'.ok = true
        · obtain ⟨m, hm, hkey⟩ := hL.answered f k r' hr' hok'
          exact hfree ⟨_, m, hm, hkey⟩
        · exact hL.refused f k r' hr' (by simpa using hok') hroom
      simp [hr, hfirst]
    · rw [hr] at hok
      cases hok
  · intro e e' f k r hcreates hcreated
    obtain ⟨L, hL⟩ := exists_explains e
    obtain ⟨t, c, now, hstep⟩ := hcreates
    rcases step_create hstep.1 hL.represents with
      ⟨id, m, hm, -, hsame, hr⟩ | ⟨-, -, hr⟩ | ⟨-, -, hsame, hr⟩
    · refine ⟨hsame, ?_⟩
      intro _
      rw [hr]
      exact currentRecord_eq hL.represents hm
    · rw [hr] at hcreated
      cases hcreated
    · refine ⟨hsame, ?_⟩
      intro hok
      rw [hr] at hok
      cases hok
  · intro e e' f k r hcreates hok
    obtain ⟨L, hL⟩ := exists_explains e
    obtain ⟨t, c, now, hstep⟩ := hcreates
    have hfits := L.countFits
    rcases step_create hstep.1 hL.represents with
      ⟨id, m, -, -, -, hr⟩ | ⟨-, -, hr⟩ | ⟨-, hfull, -, -⟩
    · rw [hr] at hok
      cases hok
    · rw [hr] at hok
      cases hok
    · rw [← hL.counted]
      omega

/-! ## Consistent indexes -/

/-- The fields of a message that the indexes depend on. -/
theorem indexed_fields {db : Db} {L : Ledger}
    (hL : Represents (entriesOf db) L) {id : UInt64} {m : Message}
    (hm : L.find id = some m) :
    fieldOf db (makeMessageKey id) (literal "from_uid") =
        some (toText m.fromUid) ∧
      fieldOf db (makeMessageKey id) (literal "to_uid") =
        some (toText m.toUid) ∧
      fieldOf db (makeMessageKey id) (literal "status") =
        some m.status.text ∧
      fieldOf db (makeMessageKey id) (literal "created_at_ms") =
        some (toText m.createdAtMs) ∧
      fieldOf db (makeMessageKey id) (literal "delivered_at_ms") =
        some (toText m.deliveredAtMs) := by
  have hfields := hL.fields_message hm
  simp only [recordFields, Message.texts, List.map_cons,
    List.cons.injEq] at hfields
  exact ⟨hfields.2.1, hfields.2.2.1, hfields.2.2.2.2.2.1,
    hfields.2.2.2.2.2.2.1, hfields.2.2.2.2.2.2.2.1⟩

section Indexes

variable {db : Db} {L : Ledger}

/-- The pending index lists the messages to the user that are pending. -/
theorem pendingIndex_iff (hL : Represents (entriesOf db) L) (uid : UInt64)
    (member : Bytes) (score : ℕ) :
    scoreOf db (makePendingKey uid) member = some score ↔
      ∃ id, member = toText id ∧
        fieldOf db (makeMessageKey id) (literal "to_uid") = some (toText uid) ∧
        fieldOf db (makeMessageKey id) (literal "status") =
          some (literal "Pending") ∧
        fieldOf db (makeMessageKey id) (literal "created_at_ms") =
          some (render score) := by
  have hindex : IndexHolds (db (makePendingKey uid)) L (pendingScore uid) :=
    hL.pending uid
  have hpendingText : MessageStatus.pending.text = literal "Pending" := rfl
  rw [hindex.scoreOf_iff]
  constructor
  · rintro ⟨id, m, rfl, hm, hscore⟩
    obtain ⟨-, hto, hstatus, hcreated, -⟩ := indexed_fields hL hm
    rw [pendingScore] at hscore
    split at hscore
    · next hcond =>
        rw [Option.some.injEq] at hscore
        refine ⟨id, rfl, ?_, ?_, ?_⟩
        · rw [hto, hcond.1]
        · rw [hstatus, hcond.2, hpendingText]
        · rw [hcreated, ← hscore, toText]
    · cases hscore
  · rintro ⟨id, rfl, hto, hstatus, hcreated⟩
    obtain ⟨m, hm, hpend⟩ := (hL.status_iff id .pending).mp hstatus
    obtain ⟨-, hto', -, hcreated', -⟩ := indexed_fields hL hm
    rw [hto', Option.some.injEq, toText_inj] at hto
    rw [hcreated', Option.some.injEq, toText, render_inj] at hcreated
    exact ⟨id, m, rfl, hm, by rw [pendingScore, if_pos ⟨hto, hpend⟩, hcreated]⟩

/-- The timeout index lists the messages that are delivered. -/
theorem timeoutIndex_iff (hL : Represents (entriesOf db) L) (member : Bytes)
    (score : ℕ) :
    scoreOf db kRedisDeliveredTimeoutKey member = some score ↔
      ∃ id, member = toText id ∧
        fieldOf db (makeMessageKey id) (literal "status") =
          some (literal "Delivered") ∧
        fieldOf db (makeMessageKey id) (literal "delivered_at_ms") =
          some (render score) := by
  have hindex : IndexHolds (db kRedisDeliveredTimeoutKey) L timeoutScore :=
    hL.timeout
  have hdeliveredText : MessageStatus.delivered.text = literal "Delivered" :=
    rfl
  rw [hindex.scoreOf_iff]
  constructor
  · rintro ⟨id, m, rfl, hm, hscore⟩
    obtain ⟨-, -, hstatus, -, hdelivered⟩ := indexed_fields hL hm
    rw [timeoutScore] at hscore
    split at hscore
    · next hcond =>
        rw [Option.some.injEq] at hscore
        refine ⟨id, rfl, ?_, ?_⟩
        · rw [hstatus, hcond, hdeliveredText]
        · rw [hdelivered, ← hscore, toText]
    · cases hscore
  · rintro ⟨id, rfl, hstatus, hdelivered⟩
    obtain ⟨m, hm, hstatus'⟩ := (hL.status_iff id .delivered).mp hstatus
    obtain ⟨-, -, -, -, hdelivered'⟩ := indexed_fields hL hm
    rw [hdelivered', Option.some.injEq, toText, render_inj] at hdelivered
    exact ⟨id, m, rfl, hm, by rw [timeoutScore, if_pos hstatus', hdelivered]⟩

/-- The recent index lists the messages from and to the user. -/
theorem recentIndex_iff (hL : Represents (entriesOf db) L) (uid : UInt64)
    (member : Bytes) (score : ℕ) :
    scoreOf db (makeRecentKey uid) member = some score ↔
      ∃ id, member = toText id ∧
        (fieldOf db (makeMessageKey id) (literal "from_uid") =
            some (toText uid) ∨
          fieldOf db (makeMessageKey id) (literal "to_uid") =
            some (toText uid)) ∧
        fieldOf db (makeMessageKey id) (literal "created_at_ms") =
          some (render score) := by
  have hindex : IndexHolds (db (makeRecentKey uid)) L (recentScore uid) :=
    hL.recent uid
  rw [hindex.scoreOf_iff]
  constructor
  · rintro ⟨id, m, rfl, hm, hscore⟩
    obtain ⟨hfrom, hto, -, hcreated, -⟩ := indexed_fields hL hm
    rw [recentScore] at hscore
    split at hscore
    · next hcond =>
        rw [Option.some.injEq] at hscore
        refine ⟨id, rfl, ?_, ?_⟩
        · rw [hfrom, hto]
          rcases hcond with hcond | hcond
          · exact .inl (by rw [hcond])
          · exact .inr (by rw [hcond])
        · rw [hcreated, ← hscore, toText]
    · cases hscore
  · rintro ⟨id, rfl, huid, hcreated⟩
    obtain ⟨m, hm⟩ : ∃ m, L.find id = some m := by
      rcases huid with hfrom | hto
      · obtain ⟨m, hm, -⟩ := (hL.fromUid_iff id uid).mp hfrom
        exact ⟨m, hm⟩
      · obtain ⟨m, hm, -⟩ := (hL.toUid_iff id uid).mp hto
        exact ⟨m, hm⟩
    obtain ⟨hfrom, hto, -, hcreated', -⟩ := indexed_fields hL hm
    simp only [hfrom, hto, Option.some.injEq, toText_inj] at huid
    rw [hcreated', Option.some.injEq, toText, render_inj] at hcreated
    exact ⟨id, m, rfl, hm, by rw [recentScore, if_pos huid, hcreated]⟩

/-- The ids in an index are those of messages. -/
theorem hasMessage_of_index {score : Message → Option ℕ}
    (hL : Represents (entriesOf db) L) {key : Bytes}
    (hindex : IndexHolds (db key) L score) {member : Bytes} {n : ℕ}
    (hscore : scoreOf db key member = some n) :
    ∃ id, member = toText id ∧ HasMessage db id := by
  obtain ⟨id, m, hmember, hm, -⟩ := (hindex.scoreOf_iff member n).mp hscore
  exact ⟨id, hmember, (hasMessage_iff hL id).mpr ⟨m, hm⟩⟩

/-- The id in an idempotency entry is that of a message. -/
theorem hasMessage_of_idempotency (hL : Represents (entriesOf db) L)
    {fromUid : UInt64} {clientMsgId text : Bytes}
    (htext : Redis.textOf db (makeIdempotencyKey fromUid clientMsgId) =
      some text) : ∃ id, text = toText id ∧ HasMessage db id := by
  by_cases htaken : L.Taken (fromUid, clientMsgId)
  · obtain ⟨id, m, hm, hkey⟩ := htaken
    simp only [Message.clientKey, Prod.mk.injEq] at hkey
    have hentry : db (makeIdempotencyKey fromUid clientMsgId) =
        some (.string (toText id)) := by
      rw [← hkey.1, ← hkey.2]
      exact hL.idempotency id m hm
    simp only [Redis.textOf, hentry, stringAt_string, Option.join_some,
      Option.some.injEq] at htext
    exact ⟨id, htext.symm, (hasMessage_iff hL id).mpr ⟨m, hm⟩⟩
  · have hentry : db (makeIdempotencyKey fromUid clientMsgId) = none :=
      hL.noIdempotency fromUid clientMsgId htaken
    simp [Redis.textOf, hentry, stringAt] at htext

end Indexes

/-- The ledger and its indexes agree in every reachable database.  The pending
index of a user lists exactly the messages to the user with status Pending, by
creation time; the timeout index exactly those with status Delivered, by
delivery time; the recent index of a user exactly those from or to the user, by
creation time.  Every id in an index or in an idempotency entry has a message
hash.  An operation that returns false leaves the database as it was. -/
theorem indexes_consistent (e : storeRuns.Execution) :
    (∀ uid member score,
      scoreOf e.state (makePendingKey uid) member = some score ↔
        ∃ id, member = toText id ∧
          fieldOf e.state (makeMessageKey id) (literal "to_uid") =
            some (toText uid) ∧
          fieldOf e.state (makeMessageKey id) (literal "status") =
            some (literal "Pending") ∧
          fieldOf e.state (makeMessageKey id) (literal "created_at_ms") =
            some (render score)) ∧
    (∀ member score,
      scoreOf e.state kRedisDeliveredTimeoutKey member = some score ↔
        ∃ id, member = toText id ∧
          fieldOf e.state (makeMessageKey id) (literal "status") =
            some (literal "Delivered") ∧
          fieldOf e.state (makeMessageKey id) (literal "delivered_at_ms") =
            some (render score)) ∧
    (∀ uid member score,
      scoreOf e.state (makeRecentKey uid) member = some score ↔
        ∃ id, member = toText id ∧
          (fieldOf e.state (makeMessageKey id) (literal "from_uid") =
              some (toText uid) ∨
            fieldOf e.state (makeMessageKey id) (literal "to_uid") =
              some (toText uid)) ∧
          fieldOf e.state (makeMessageKey id) (literal "created_at_ms") =
            some (render score)) ∧
    (∀ uid member score,
      scoreOf e.state (makePendingKey uid) member = some score ∨
        scoreOf e.state kRedisDeliveredTimeoutKey member = some score ∨
        scoreOf e.state (makeRecentKey uid) member = some score →
      ∃ id, member = toText id ∧ HasMessage e.state id) ∧
    (∀ fromUid clientMsgId text,
      Redis.textOf e.state (makeIdempotencyKey fromUid clientMsgId) = some text →
      ∃ id, text = toText id ∧ HasMessage e.state id) ∧
    (∀ call e', e.Next call e' →
      call.result = .updated false ∨
        (∃ r, call.result = .created r ∧ r.ok = false) →
      e'.state = e.state) := by
  obtain ⟨L, hexplains⟩ := exists_explains e
  have hL := hexplains.represents
  refine ⟨pendingIndex_iff hL, timeoutIndex_iff hL, recentIndex_iff hL, ?_, ?_,
    ?_⟩
  · rintro uid member score (hpending | htimeout | hrecent)
    · exact hasMessage_of_index hL (hL.pending uid) hpending
    · exact hasMessage_of_index hL hL.timeout htimeout
    · exact hasMessage_of_index hL (hL.recent uid) hrecent
  · intro fromUid clientMsgId text htext
    exact hasMessage_of_idempotency hL htext
  · intro call e' hnext hresult
    exact step_refused hnext.1 hL hresult

end ReliableDelivery
