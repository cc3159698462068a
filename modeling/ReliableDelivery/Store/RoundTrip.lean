import ReliableDelivery.Store.Sequence

/-!
# What is written is what is read

The record of a message passes through Redis as text.  `record_roundTrip` says
that a creation, a repeated creation and a read all return the fields given at
the creation, together with the values that the state scripts wrote last.  These
last values are computed from the calls alone (`written`), without looking at
the database.

The retry count is the exception: the script counts with 64 bits and the record
has a C++ `int`.
-/

namespace ReliableDelivery

open Decimal Redis TransitionSystem

/-- The fields that the state scripts write. -/
structure Progress where
  status : MessageStatus := .pending
  deliveredAtMs : UInt64 := 0
  ackedAtMs : UInt64 := 0
  retryCount : ℕ := 0
  deriving DecidableEq

/-- What a call writes on a message if its script made the update. -/
def StoreCall.write (msgId : UInt64) (call : StoreCall) (p : Progress) :
    Progress :=
  if call.result = .updated true then
    match call.op with
    | .markDelivered id =>
        if id = msgId then
          { p with status := .delivered, deliveredAtMs := call.now }
        else p
    | .markPending id => if id = msgId then { p with status := .pending } else p
    | .markAcked id _ =>
        if id = msgId then { p with status := .acked, ackedAtMs := call.now }
        else p
    | .markFailed id => if id = msgId then { p with status := .failed } else p
    | .incrementRetryCount id =>
        if id = msgId then { p with retryCount := p.retryCount + 1 } else p
    | .createMessage _ _ _ _ => p
  else p

/-- The values last written on a message. -/
def written (msgId : UInt64) (e : storeRuns.Execution) : Progress :=
  e.history.foldr (fun s p => s.2.write msgId p) {}

/-- The record with these fields. -/
def Progress.record (p : Progress) (msgId fromUid toUid : UInt64)
    (content clientMsgId : Bytes) (createdAtMs : UInt64) : MessageRecord where
  msgId := msgId
  fromUid := fromUid
  toUid := toUid
  content := content
  clientMsgId := clientMsgId
  status := p.status
  createdAtMs := createdAtMs
  deliveredAtMs := p.deliveredAtMs
  ackedAtMs := p.ackedAtMs
  retryCount := toInt32 p.retryCount

/-- An `int` holds the count as long as it fits. -/
theorem toInt32_of_lt {n : ℕ} (h : n < 2 ^ 31) : toInt32 n = n := by
  rw [toInt32]
  exact Int.bmod_eq_of_le (by omega) (by omega)

section Written

def Message.progress (m : Message) : Progress where
  status := m.status
  deliveredAtMs := m.deliveredAtMs
  ackedAtMs := m.ackedAtMs
  retryCount := m.retryCount

/-- What the ledger says of a message; an id without a message is fresh. -/
def Ledger.progress (L : Ledger) (id : UInt64) : Progress :=
  ((L.find id).map Message.progress).getD {}

variable {L : Ledger} {id : UInt64} {m : Message}

theorem Ledger.progress_eq (hm : L.find id = some m) :
    L.progress id = m.progress := by
  rw [progress, hm]
  rfl

/-- A change of one message, seen from any id. -/
theorem Ledger.progress_modify {id' : UInt64} {change : Change}
    (hm : L.find id = some m) :
    (L.modify id change).progress id' =
      if id = id' then (change.apply m).progress else L.progress id' := by
  rw [progress, find_modify]
  by_cases h : id = id'
  · subst h
    rw [if_pos rfl, if_pos rfl, hm]
    rfl
  · rw [if_neg (Ne.symm h), if_neg h, progress]

theorem Ledger.progress_after_create {f t now : UInt64} {c k : Bytes} :
    (L.after (.evalCreateMessage f t c k now)).progress id = L.progress id := by
  by_cases hnew : ¬L.Taken (f, k) ∧ L.count + 1 < 2 ^ 63
  · rw [progress, find_after_create_new hnew.1 hnew.2]
    split
    · next heq =>
        rw [heq, progress, L.find_nextId]
        rfl
    · rfl
  · rw [after, dif_neg hnew]

/-- A call that reports false writes nothing. -/
theorem StoreCall.write_refused {op : StoreOp} {now : UInt64} {done : Bool}
    {p : Progress} (h : done = false) :
    StoreCall.write id ⟨op, now, .updated done⟩ p = p := by
  rw [h]
  rfl

/-- A script that changed a message wrote the changed fields. -/
theorem progress_changed {op : StoreOp} {now id' : UInt64} {change : Change}
    {done : Bool} (hm : L.find id = some m) (hdone : done = true)
    (hwrite : ∀ p, StoreCall.write id' ⟨op, now, .updated true⟩ p =
      if id = id' then StoreCall.write id ⟨op, now, .updated true⟩ p else p)
    (hchange : (change.apply m).progress =
      StoreCall.write id ⟨op, now, .updated true⟩ m.progress) :
    (L.modify id change).progress id' =
      StoreCall.write id' ⟨op, now, .updated done⟩ (L.progress id') := by
  rw [hdone, Ledger.progress_modify hm, hwrite]
  split
  · next heq =>
      rw [hchange, ← heq, Ledger.progress_eq hm]
  · rfl

/-- The scripts that take the message id only. -/
theorem progress_msgState (script : MsgStateScript) {db : Db} {op : StoreOp}
    {i now : UInt64} (hL : Represents (entriesOf db) L)
    (hrequest : op.request now = .evalMsgStateScript script i now)
    (hread : ∀ reply, op.read reply = .updated (replyIsTrue reply))
    (hwrite : ∀ p, StoreCall.write id ⟨op, now, .updated true⟩ p =
      if i = id then StoreCall.write i ⟨op, now, .updated true⟩ p else p)
    (hchange : ∀ m, ((script.change now).apply m).progress =
      StoreCall.write i ⟨op, now, .updated true⟩ m.progress) :
    (L.after (op.request now)).progress id =
      StoreCall.write id ⟨op, now, op.read (some ((op.request now).run db).1)⟩
        (L.progress id) := by
  rw [hread, hrequest]
  rcases run_msgState hL script i now with ⟨m, db', hm, hrun, -⟩ | ⟨hnone, hrun⟩
  · rw [hrun]
    exact progress_changed hm rfl hwrite (hchange m)
  · rw [hrun, Ledger.after, Ledger.modify_absent hnone]
    exact (StoreCall.write_refused rfl).symm

/-- A call writes on the ledger what its result says. -/
theorem progress_step {db db' : Db} {call : StoreCall}
    (h : storeRuns.step db call db') (hL : Represents (entriesOf db) L) :
    (L.after (call.op.request call.now)).progress id =
      call.write id (L.progress id) := by
  have hread := (step_run h).1
  obtain ⟨op, now, result⟩ := call
  simp only at hread
  subst hread
  cases op with
  | createMessage f t c k => exact Ledger.progress_after_create
  | markDelivered i =>
      apply progress_msgState .markDelivered hL rfl fun _ => rfl
      · intro p
        simp [StoreCall.write]
      · intro m
        simp [StoreCall.write, Message.progress, MsgStateScript.change,
          Change.deliver]
  | markPending i =>
      apply progress_msgState .markPending hL rfl fun _ => rfl
      · intro p
        simp [StoreCall.write]
      · intro m
        simp [StoreCall.write, Message.progress, MsgStateScript.change,
          Change.postpone]
  | markFailed i =>
      apply progress_msgState .markFailed hL rfl fun _ => rfl
      · intro p
        simp [StoreCall.write]
      · intro m
        simp [StoreCall.write, Message.progress, MsgStateScript.change,
          Change.fail]
  | markAcked i ackUid =>
      simp only [StoreOp.request, StoreOp.read]
      rcases run_markAcked hL i ackUid now with
        ⟨m, db₁, hm, huid, hrun, -⟩ | ⟨hother, hrun⟩
      · rw [hrun]
        apply progress_changed hm rfl
        · intro p
          simp [StoreCall.write]
        · simp [StoreCall.write, Message.progress, Change.acknowledge, huid]
      · have hsame : ∀ m, L.find i = some m →
            (Change.acknowledge ackUid now).apply m = m := by
          intro m hm
          exact if_neg (hother m hm)
        rw [hrun, Ledger.after, Ledger.modify_same hsame]
        exact (StoreCall.write_refused rfl).symm
  | incrementRetryCount i =>
      simp only [StoreOp.request, StoreOp.read]
      rcases run_incrementRetry hL i with
        ⟨m, db₁, hm, hroom, hrun, -⟩ | ⟨hfull, reply, hreply, hrun⟩
      · rw [hrun]
        apply progress_changed hm rfl
        · intro p
          simp [StoreCall.write]
        · simp only [Change.retry, if_pos hroom, StoreCall.write, if_true]
          rfl
      · have hsame : ∀ m, L.find i = some m → Change.retry.apply m = m := by
          intro m hm
          exact if_neg (hfull m hm)
        rw [hrun, Ledger.after, Ledger.modify_same hsame]
        exact (StoreCall.write_refused hreply).symm

/-- The ledger holds the values last written. -/
theorem exists_written (e : storeRuns.Execution) :
    ∃ L, Represents (entriesOf e.state) L ∧ ∀ id, L.progress id = written id e := by
  apply Execution.induct (P := fun e => ∃ L,
    Represents (entriesOf e.state) L ∧ ∀ id, L.progress id = written id e)
  · intro e hnil hinit
    have hempty : e.state = .empty := hinit
    refine ⟨.empty, by rw [hempty]; exact represents_empty, ?_⟩
    intro id
    rw [written, hnil]
    rfl
  · rintro e e' call ⟨L, hL, hwritten⟩ hnext
    refine ⟨_, step_represents hnext.1 hL, ?_⟩
    intro id
    rw [progress_step hnext.1 hL, hwritten, written, written, hnext.2]
    rfl

/-- A message keeps the fields it was created with, and its other fields are
those last written. -/
theorem exists_message_later {e e' : storeRuns.Execution} (h : e.Later e')
    (hL : Represents (entriesOf e.state) L) (hm : L.find id = some m) :
    ∃ L' m', Represents (entriesOf e'.state) L' ∧ L'.find id = some m' ∧
      m'.origin = m.origin ∧ m'.progress = written id e' := by
  have horigin : ∃ L' m', Represents (entriesOf e'.state) L' ∧
      L'.find id = some m' ∧ m'.origin = m.origin := by
    apply h.preserves (P := fun e => ∃ L' m',
      Represents (entriesOf e.state) L' ∧ L'.find id = some m' ∧
        m'.origin = m.origin) ⟨L, m, hL, hm, rfl⟩
    rintro e₁ e₂ call ⟨L₁, m₁, hL₁, hm₁, horigin₁⟩ hnext
    obtain ⟨m₂, hm₂, horigin₂, -⟩ :=
      (L₁.extends_after (call.op.request call.now)).2 id m₁ hm₁
    exact ⟨_, m₂, step_represents hnext.1 hL₁, hm₂,
      horigin₂.trans horigin₁⟩
  obtain ⟨L', m', hL', hm', horigin⟩ := horigin
  obtain ⟨L'', hL'', hwritten⟩ := exists_written e'
  refine ⟨L', m', hL', hm', horigin, ?_⟩
  rw [← hwritten, hL''.unique hL', Ledger.progress_eq hm']

end Written

/-- A record goes through Redis and comes back.  After a creation and any further
calls, the record returned by the creation, by a read and by a repeated creation
has the fields given at the creation and the values last written by a script.
The retry count is read into an `int`, and is the one written as long as that
fits. -/
theorem record_roundTrip (e₁ e₂ e₃ : storeRuns.Execution)
    (fromUid toUid now : UInt64) (content clientMsgId : Bytes)
    (r : CreateMessageResult)
    (hcreate : e₁.Next
      ⟨.createMessage fromUid toUid content clientMsgId, now, .created r⟩ e₂)
    (hnew : r.created = true) (hlater : e₂.Later e₃) :
    let id := r.record.msgId
    let last := written id e₃
    let expected := last.record id fromUid toUid content clientMsgId now
    r.ok = true ∧
    r.record =
      Progress.record {} id fromUid toUid content clientMsgId now ∧
    currentRecord e₃.state id = some expected ∧
    (∀ toUid' content' now' r' e₄, e₃.Next
      ⟨.createMessage fromUid toUid' content' clientMsgId, now', .created r'⟩
        e₄ →
      r' = { record := expected, created := false, ok := true }) ∧
    (last.retryCount < 2 ^ 31 → expected.retryCount = last.retryCount) := by
  obtain ⟨L, hexplains⟩ := exists_explains e₁
  have hL := hexplains.represents
  rcases step_create hcreate.1 hL with
    ⟨id, m, -, -, -, rfl⟩ | ⟨hfree, hroom, rfl⟩ | ⟨-, -, -, rfl⟩
  · cases hnew
  · set m := Message.new fromUid toUid content clientMsgId now with hm
    have hfind : (L.after (.evalCreateMessage fromUid toUid content clientMsgId
        now)).find L.nextId = some m := by
      rw [Ledger.find_after_create_new hfree hroom, if_pos rfl]
    obtain ⟨L', m', hL', hfind', horigin, hprogress⟩ := exists_message_later
      hlater (step_represents hcreate.1 hL) hfind
    simp only [Message.origin, Prod.mk.injEq] at horigin
    obtain ⟨hfrom, hto, hcontent, hclient, htime⟩ := horigin
    have hrecord : m'.record L.nextId =
        (written L.nextId e₃).record L.nextId fromUid toUid content
          clientMsgId now := by
      rw [← hprogress]
      simp only [Message.record, Progress.record, Message.progress, hfrom, hto,
        hcontent, hclient, htime]
      rfl
    refine ⟨rfl, rfl, ?_, ?_, ?_⟩
    · have hcurrent := currentRecord_eq hL' hfind'
      rw [hrecord] at hcurrent
      exact hcurrent
    · intro toUid' content' now' r' e₄ hagain
      have hkey : m'.clientKey = (fromUid, clientMsgId) := by
        rw [Message.clientKey, hfrom, hclient]
        rfl
      rcases step_create hagain.1 hL' with
        ⟨id, m'', hfind'', hkey'', -, rfl⟩ | ⟨hfree', -⟩ | ⟨hfree', -⟩
      · have hid := L'.distinct _ _ _ _ hfind'' hfind' (hkey''.trans hkey.symm)
        subst hid
        rw [hfind', Option.some.injEq] at hfind''
        rw [← hfind'', hrecord]
        rfl
      · exact absurd ⟨_, m', hfind', hkey⟩ hfree'
      · exact absurd ⟨_, m', hfind', hkey⟩ hfree'
    · dsimp only [Message.record, Progress.record]
      exact toInt32_of_lt
  · cases hnew

/-- One message from user 1 to user 2, with a NUL byte in its content. -/
def oneMessage : storeRuns.Execution :=
  call noCalls (.createMessage 1 2 [0, 49] [50]) 1000

/-- What its creation returned. -/
def oneMessageResult : CreateMessageResult where
  record := Progress.record {} 1 1 2 [0, 49] [50] 1000
  created := true
  ok := true

theorem next_oneMessage :
    noCalls.Next
      ⟨.createMessage 1 2 [0, 49] [50], 1000, .created oneMessageResult⟩
      oneMessage := by
  have hresult : ((StoreOp.createMessage 1 2 [0, 49] [50]).perform 1000
      noCalls.state).1 = .created oneMessageResult := by
    decide +kernel
  have hnext := next_call noCalls (.createMessage 1 2 [0, 49] [50]) 1000
  rw [hresult] at hnext
  exact hnext

/-- The message is delivered, and counted as retried. -/
theorem record_roundTrip_oneMessage :
    currentRecord
        (call (call oneMessage (.markDelivered 1) 2000)
          (.incrementRetryCount 1) 3000).state 1 =
      some ({ status := .delivered, deliveredAtMs := 2000, retryCount := 1 :
        Progress }.record 1 1 2 [0, 49] [50] 1000) := by
  have hlater := (next_call oneMessage (.markDelivered 1) 2000).later.trans
    (next_call _ (.incrementRetryCount 1) 3000).later
  have hwritten : written 1 (call (call oneMessage (.markDelivered 1) 2000)
      (.incrementRetryCount 1) 3000) =
        { status := .delivered, deliveredAtMs := 2000, retryCount := 1 } := by
    decide +kernel
  rw [← hwritten]
  exact (record_roundTrip _ _ _ 1 2 1000 [0, 49] [50] oneMessageResult
    next_oneMessage rfl hlater).2.2.1

/-- The message, counted as retried `n` times. -/
def retried (n : ℕ) : storeRuns.Execution :=
  (fun e => call e (.incrementRetryCount 1) 0)^[n] oneMessage

theorem later_retried (n : ℕ) : oneMessage.Later (retried n) := by
  induction n with
  | zero => exact .refl _
  | succ n ih =>
      rw [retried, Function.iterate_succ_apply']
      exact ih.trans (next_call (retried n) (.incrementRetryCount 1) 0).later

theorem exists_message_retried (n : ℕ) :
    ∃ L m, Represents (entriesOf (retried n).state) L ∧ L.find 1 = some m ∧
      m.progress = written 1 (retried n) := by
  obtain ⟨L, hexplains⟩ := exists_explains oneMessage
  have hcreated : Created oneMessage 1 [50] oneMessageResult :=
    ⟨_, 2, [0, 49], 1000, next_oneMessage.mem_history⟩
  obtain ⟨m, hm, -⟩ := hexplains.answered 1 [50] oneMessageResult hcreated rfl
  obtain ⟨L', m', hL', hm', -, hprogress⟩ :=
    exists_message_later (later_retried n) hexplains.represents hm
  exact ⟨L', m', hL', hm', hprogress⟩

/-- Every retry is counted. -/
theorem written_retried {n : ℕ} (hn : n < 2 ^ 63) :
    (written 1 (retried n)).retryCount = n := by
  induction n with
  | zero => decide +kernel
  | succ n ih =>
      have hcount := ih (by omega)
      obtain ⟨L, m, hL, hm, hprogress⟩ := exists_message_retried n
      rw [← hprogress] at hcount
      have hroom : m.retryCount + 1 < 2 ^ 63 := by
        change m.retryCount = n at hcount
        omega
      have hresult : ((StoreOp.incrementRetryCount 1).perform 0
          (retried n).state).1 = .updated true := by
        rw [StoreOp.perform_eq, StoreOp.request]
        rcases run_incrementRetry hL 1 with
          ⟨m', db', -, -, hrun, -⟩ | ⟨hfull, -⟩
        · rw [hrun]
          rfl
        · exact absurd hroom (hfull m hm)
      have hnext := next_call (retried n) (.incrementRetryCount 1) 0
      rw [hresult] at hnext
      rw [retried, Function.iterate_succ_apply']
      change (written 1 (call (retried n) _ 0)).retryCount = n + 1
      rw [written, hnext.2]
      change (written 1 (retried n)).retryCount + 1 = n + 1
      rw [← hprogress, hcount]

theorem currentRecord_retried {n : ℕ} (hn : n < 2 ^ 63) :
    ∃ record, currentRecord (retried n).state 1 = some record ∧
      record.retryCount = toInt32 n := by
  obtain ⟨L, m, hL, hm, hprogress⟩ := exists_message_retried n
  have hcount : m.retryCount = n := by
    change m.progress.retryCount = n
    rw [hprogress]
    exact written_retried hn
  refine ⟨m.record 1, currentRecord_eq hL hm, ?_⟩
  rw [Message.record, hcount]

/-- After enough retries the record shows a negative count. -/
theorem retryCount_wraps :
    noCalls.Next
        ⟨.createMessage 1 2 [0, 49] [50], 1000, .created oneMessageResult⟩
        oneMessage ∧
      oneMessage.Later (retried (2 ^ 31)) ∧
      (written 1 (retried (2 ^ 31))).retryCount = 2 ^ 31 ∧
      ∃ record, currentRecord (retried (2 ^ 31)).state 1 = some record ∧
        record.retryCount = -2 ^ 31 := by
  have hfits : 2 ^ 31 < 2 ^ 63 := by decide
  obtain ⟨record, hcurrent, hcount⟩ := currentRecord_retried hfits
  have hwraps : toInt32 (2 ^ 31 : ℕ) = -2 ^ 31 := by decide
  exact ⟨next_oneMessage, later_retried _, written_retried hfits, record,
    hcurrent, hcount.trans hwraps⟩

end ReliableDelivery
