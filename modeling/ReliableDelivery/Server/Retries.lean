import ReliableDelivery.Server.Footprint
import ReliableDelivery.Server.Traces
import ReliableDelivery.Server.Wakeup

/-!
# Counting retries

Only the delivery thread counts retries, and it sends the push of a retry right
after it has counted it.  The limit is checked on a record that was read at the
beginning of the scan.  The record stays current as far as the count goes, since
no other thread counts and no scan counts a message twice.
-/

namespace ReliableDelivery

open Decimal Redis MessageStore EnvelopeFactory TransitionSystem Program

/-! ## What a scan may do -/

/-- The message whose retry has been counted while its push is still to be
sent. -/
def owing : ServerTrace → Option UInt64
  | ⟨.redis (.evalIncrementRetryScript id), _⟩ :: _ => some id
  | ⟨.nowMs, _⟩ :: τ => owing τ
  | _ => none

/-- One for each time the retry of the message is counted. -/
def countsRetry (id : UInt64) (a : Σ command : Command, command.Answer) : ℕ :=
  if a.1 = .redis (.evalIncrementRetryScript id) then 1 else 0

/-- The answers of a sound store: a record carries the id it was asked for, and
an index names no message twice. -/
structure Sound (τ : ServerTrace) : Prop where
  record : ∀ id record, HasRead τ id record → record.msgId = id
  index : ∀ maxScore answer,
    ⟨.redis (.zrangebyscoreTimeout maxScore), answer⟩ ∈ τ →
      ((replyElements answer).filterMap parseUint64).Nodup

/-- The rule of a scan.  Records are read before any retry is counted; a retry is
counted once for each message, on a record below the limit, and is followed by
its push. -/
def ScanRule (τ : ServerTrace) : Command → Prop
  | .nowMs => True
  | .sendEnvelope _ envelope =>
      ∃ push, envelope.chatPush? = some push ∧ owing τ = some push.msgId
  | .redis (.evalIncrementRetryScript id) =>
      owing τ = none ∧ (Sound τ → tally (countsRetry id) τ = 0 ∧
        ∃ record, HasRead τ id record ∧
          record.retryCount < kMaxDeliveryRetryCount)
  | .redis (.hmgetRecord _) =>
      owing τ = none ∧ ∀ id, tally (countsRetry id) τ = 0
  | _ => owing τ = none

theorem Sound.mono {τ τ' : ServerTrace} (h : Sound τ') (hτ : τ <:+ τ') :
    Sound τ where
  record id record hread := h.record id record (hread.mono hτ)
  index maxScore answer hmem := h.index maxScore answer (hτ.mem hmem)

/-- Commands that need more than that nothing is owed. -/
def Loud : Command → Prop
  | .sendEnvelope _ _ => True
  | .redis (.evalIncrementRetryScript _) => True
  | .redis (.hmgetRecord _) => True
  | _ => False

/-- Nothing is owed, and the counts are what they were. -/
def Even (τ₀ τ : ServerTrace) : Prop :=
  owing τ = none ∧
    ∀ id, tally (countsRetry id) τ = tally (countsRetry id) τ₀

/-- The other commands are always allowed then, and change nothing of it. -/
theorem even_step (τ₀ : ServerTrace) (τ : ServerTrace) (command : Command)
    (h : Even τ₀ τ) (hquiet : ¬Loud command) :
    ScanRule τ command ∧ ∀ answer, Even τ₀ (⟨command, answer⟩ :: τ) := by
  obtain ⟨howing, hcounts⟩ := h
  have htally : ∀ (answer : command.Answer) id,
      tally (countsRetry id) (⟨command, answer⟩ :: τ) =
        tally (countsRetry id) τ₀ := by
    intro answer id
    have hzero : countsRetry id ⟨command, answer⟩ = 0 := by
      rw [countsRetry, if_neg]
      intro heq
      change command = _ at heq
      rw [heq] at hquiet
      exact hquiet trivial
    rw [tally_cons, hzero, hcounts id, Nat.zero_add]
  cases command with
  | nowMs => exact ⟨trivial, fun answer => ⟨howing, htally answer⟩⟩
  | sendEnvelope conn envelope => exact absurd trivial hquiet
  | redis request =>
      cases request with
      | evalIncrementRetryScript id => exact absurd trivial hquiet
      | hmgetRecord id => exact absurd trivial hquiet
      | _ => exact ⟨howing, fun answer => ⟨rfl, htally answer⟩⟩
  | _ => exact ⟨howing, fun answer => ⟨rfl, htally answer⟩⟩

/-- A program without loud commands leaves things even. -/
theorem follows_quiet {α : Type} {p : Handler α} {τ : ServerTrace}
    (hp : Avoids (fun _ _ => True) Loud (fun _ => True) p)
    (h : owing τ = none) :
    Follows ScanRule (fun τ' _ => Even τ τ') p τ :=
  follows_of_avoids (even_step τ) hp ⟨h, fun _ => rfl⟩

theorem quiet_evalMsgState (script : MsgStateScript) (msgId : UInt64) :
    Avoids (fun _ _ => True) Loud (fun _ => True)
      (evalMsgState script msgId : Handler _) := by
  refine avoids_call.mpr ⟨id, fun now _ => ?_⟩
  refine avoids_call.mpr ⟨id, fun reply _ => ?_⟩
  exact avoids_done.mpr trivial

theorem quiet_onlineTarget (uid : UInt64) :
    Avoids (fun _ _ => True) Loud (fun _ => True) (onlineTarget uid) := by
  refine avoids_call.mpr ⟨id, fun target _ => ?_⟩
  rcases target with _ | conn
  · exact avoids_done.mpr trivial
  · refine avoids_call.mpr ⟨id, fun connected _ => ?_⟩
    exact avoids_done.mpr trivial

/-! ## Reading the records -/

/-- Nothing is owed and nothing has been counted. -/
def Idle (τ : ServerTrace) : Prop :=
  owing τ = none ∧ ∀ id, tally (countsRetry id) τ = 0

theorem follows_fetchElement (keep : MessageRecord → Bool) (element : Reply)
    {τ : ServerTrace} (h : Idle τ) :
    Follows ScanRule
      (fun τ' o => Idle τ' ∧ (Sound τ' → ∀ record ∈ o,
        parseUint64 element = some record.msgId ∧
          HasRead τ' record.msgId record))
      (fetchElement keep element : Handler _) τ := by
  rw [fetchElement]
  split
  · exact follows_done.mpr ⟨h, by simp⟩
  · next msgId helement =>
      rw [fetchRecord]
      split
      · exact follows_done.mpr ⟨h, by simp⟩
      · refine follows_call.mpr ⟨h, fun answer => ?_⟩
        change Follows ScanRule _
          (.done ((readRecordReply answer).filter keep)) _
        refine follows_done.mpr ⟨⟨rfl, ?_⟩, ?_⟩
        · intro id
          rw [tally_cons, h.2 id]
          rfl
        · intro hsound record hrecord
          rw [Option.mem_def, Option.filter_eq_some_iff] at hrecord
          have hread : HasRead
              (⟨.redis (.hmgetRecord msgId), answer⟩ :: τ) msgId record :=
            ⟨answer, List.mem_cons_self, hrecord.1⟩
          have hid := hsound.record msgId record hread
          rw [hid]
          exact ⟨helement, hread⟩

theorem follows_collectRecords (keep : MessageRecord → Bool)
    (elements : List Reply) {τ : ServerTrace} (h : Idle τ) :
    Follows ScanRule
      (fun τ' records => Idle τ' ∧ (Sound τ' →
        (records.map MessageRecord.msgId).Sublist
          (elements.filterMap parseUint64) ∧
        ∀ record ∈ records, HasRead τ' record.msgId record))
      (collect elements (fetchElement keep) : Handler _) τ := by
  induction elements generalizing τ with
  | nil => exact follows_done.mpr ⟨h, by simp⟩
  | cons element elements ih =>
      apply Follows.bind (follows_fetchElement keep element h)
      rintro found τ₁ - ⟨hidle₁, hfound⟩
      apply Follows.bind (ih hidle₁)
      rintro records τ₂ hτ₂ ⟨hidle₂, hrecords⟩
      refine follows_done.mpr ⟨hidle₂, fun hsound => ?_⟩
      obtain ⟨hsublist, hread⟩ := hrecords hsound
      rcases found with _ | record
      · refine ⟨?_, by simpa using hread⟩
        rw [List.filterMap_cons]
        split
        · simpa using hsublist
        · exact (by simpa using hsublist : List.Sublist _ _).cons _
      · obtain ⟨helement, hfirst⟩ := hfound (hsound.mono hτ₂) record rfl
        constructor
        · rw [List.filterMap_cons_some helement]
          simpa using hsublist
        · intro record' hrecord'
          simp only [Option.toList_some, List.singleton_append,
            List.mem_cons] at hrecord'
          rcases hrecord' with rfl | hrecord'
          · exact hfirst.mono hτ₂
          · exact hread record' hrecord'

/-! ## The loop of a scan -/

/-- A record of the scan: it was read, and its retry has not been counted. -/
def Fresh (τ : ServerTrace) (record : MessageRecord) : Prop :=
  HasRead τ record.msgId record ∧
    tally (countsRetry record.msgId) τ = 0

/-- Nothing is owed, and only one message may have been counted. -/
def EvenBut (id : UInt64) (τ₀ τ : ServerTrace) : Prop :=
  owing τ = none ∧ ∀ id', id' ≠ id →
    tally (countsRetry id') τ = tally (countsRetry id') τ₀

theorem Even.evenBut {τ₀ τ : ServerTrace} (h : Even τ₀ τ) (id : UInt64) :
    EvenBut id τ₀ τ :=
  ⟨h.1, fun id' _ => h.2 id'⟩

/-- The push that settles what is owed, and the mark after it. -/
theorem follows_pushAndMark {conn : Conn} {record : MessageRecord}
    {τ : ServerTrace} (h : owing τ = some record.msgId) :
    Follows ScanRule (fun τ' _ => owing τ' = none ∧ ∀ id,
        tally (countsRetry id) τ' = tally (countsRetry id) τ)
      (pushAndMark conn record) τ := by
  have hpush : ∀ (envelope : Envelope) (τ₁ : ServerTrace),
      owing τ₁ = some record.msgId →
      (∀ id, tally (countsRetry id) τ₁ = tally (countsRetry id) τ) →
      (∃ push, envelope.chatPush? = some push ∧ push.msgId = record.msgId) →
      Follows ScanRule (fun τ' _ => owing τ' = none ∧ ∀ id,
          tally (countsRetry id) τ' = tally (countsRetry id) τ)
        ((sendEnvelope conn envelope).bind fun _ =>
          (markDelivered record.msgId : Handler _).bind fun _ => .done true)
        τ₁ := by
    rintro envelope τ₁ howing hcounts ⟨push, hpayload, hid⟩
    refine follows_call.mpr ⟨⟨push, hpayload, by rw [hid]; exact howing⟩,
      fun answer => ?_⟩
    have hmark := @follows_quiet _ _
      (⟨.sendEnvelope conn envelope, answer⟩ :: τ₁)
      (quiet_evalMsgState .markDelivered record.msgId) rfl
    apply Follows.bind hmark
    rintro _ τ₂ - ⟨howing₂, hcounts₂⟩
    refine follows_done.mpr ⟨howing₂, fun id => ?_⟩
    rw [hcounts₂ id, tally_cons, hcounts id]
    exact Nat.zero_add _
  refine follows_call.mpr ⟨trivial, fun now => ?_⟩
  have hclock : ∀ id, tally (countsRetry id) (⟨Command.nowMs, now⟩ :: τ) =
      tally (countsRetry id) τ := by
    intro id
    rw [tally_cons]
    exact Nat.zero_add _
  by_cases hstamp : record.createdAtMs = 0
  · simp only [hstamp, if_true]
    refine follows_call.mpr ⟨trivial, fun stamp => ?_⟩
    apply hpush
    · exact h
    · intro id
      rw [tally_cons, hclock id]
      exact Nat.zero_add _
    · exact ⟨_, rfl, rfl⟩
  · simp only [hstamp, if_false]
    apply hpush
    · exact h
    · exact hclock
    · exact ⟨_, rfl, rfl⟩

theorem follows_retryDeliverMessage {record : MessageRecord} {τ : ServerTrace}
    (howing : owing τ = none) (hfresh : Sound τ → Fresh τ record)
    (hlimit : record.retryCount < kMaxDeliveryRetryCount) :
    Follows ScanRule (fun τ' _ => EvenBut record.msgId τ τ')
      (retryDeliverMessage record) τ := by
  rw [retryDeliverMessage]
  split
  · exact follows_done.mpr ⟨howing, fun _ _ => rfl⟩
  · apply Follows.bind (follows_quiet (quiet_onlineTarget record.toUid) howing)
    rintro target τ₁ hτ₁ heven
    rcases target with _ | conn
    · apply Follows.bind (follows_quiet
        (quiet_evalMsgState .markPending record.msgId) heven.1)
      rintro _ τ₂ - ⟨howing₂, hcounts₂⟩
      refine follows_done.mpr ⟨howing₂, fun id _ => ?_⟩
      rw [hcounts₂ id, heven.2 id]
    · refine follows_call.mpr ⟨⟨heven.1, fun hsound => ?_⟩, fun answer => ?_⟩
      · obtain ⟨hread, hzero⟩ := hfresh (hsound.mono hτ₁)
        refine ⟨?_, record, hread.mono hτ₁, hlimit⟩
        rw [heven.2, hzero]
      · apply (follows_pushAndMark rfl).weaken
        rintro _ τ₂ - ⟨howing₂, hcounts₂⟩
        refine ⟨howing₂, fun id hid => ?_⟩
        have hother : countsRetry id
            ⟨.redis (.evalIncrementRetryScript record.msgId), answer⟩ = 0 := by
          rw [countsRetry, if_neg]
          intro heq
          simp only [Command.redis.injEq,
            RedisRequest.evalIncrementRetryScript.injEq] at heq
          exact hid heq.symm
        rw [hcounts₂ id, tally_cons, hother, heven.2 id, Nat.zero_add]

/-- The body of the loop. -/
def scanRecord (record : MessageRecord) : Handler Unit :=
  if kMaxDeliveryRetryCount ≤ record.retryCount then do
    let _ ← markFailed record.msgId
    pure ()
  else do
    let _ ← retryDeliverMessage record
    pure ()

theorem follows_scanRecord {record : MessageRecord} {τ : ServerTrace}
    (howing : owing τ = none) (hfresh : Sound τ → Fresh τ record) :
    Follows ScanRule (fun τ' _ => EvenBut record.msgId τ τ')
      (scanRecord record) τ := by
  rw [scanRecord]
  split
  · apply Follows.bind (follows_quiet
      (quiet_evalMsgState .markFailed record.msgId) howing)
    rintro _ τ₁ - heven
    exact follows_done.mpr (heven.evenBut _)
  · next hlimit =>
      apply Follows.bind (follows_retryDeliverMessage howing hfresh (by omega))
      rintro _ τ₁ - heven
      exact follows_done.mpr heven

/-- The records are about different messages, so each is still fresh when its
turn comes. -/
theorem follows_scanRecords (records : List MessageRecord) {τ : ServerTrace}
    (howing : owing τ = none)
    (hrecords : Sound τ → (records.map MessageRecord.msgId).Nodup ∧
      ∀ record ∈ records, Fresh τ record) :
    Follows ScanRule (fun τ' _ => owing τ' = none)
      (forEach records scanRecord) τ := by
  induction records generalizing τ with
  | nil => exact follows_done.mpr howing
  | cons record records ih =>
      apply Follows.bind (follows_scanRecord howing fun hsound =>
        (hrecords hsound).2 record (by simp))
      rintro _ τ₁ hτ₁ ⟨howing₁, hcounts₁⟩
      apply ih howing₁
      intro hsound
      obtain ⟨hnodup, hfresh⟩ := hrecords (hsound.mono hτ₁)
      rw [List.map_cons, List.nodup_cons] at hnodup
      refine ⟨hnodup.2, fun record' hrecord' => ?_⟩
      obtain ⟨hread, hzero⟩ := hfresh record' (by simp [hrecord'])
      refine ⟨hread.mono hτ₁, ?_⟩
      have hother : record'.msgId ≠ record.msgId := by
        intro heq
        apply hnodup.1
        rw [← heq]
        exact List.mem_map_of_mem hrecord'
      rw [hcounts₁ _ hother, hzero]

/-- A scan follows the rule, and owes nothing at its end. -/
theorem follows_deliveryScan :
    Follows ScanRule (fun τ _ => owing τ = none) deliveryScan [] := by
  refine follows_call.mpr ⟨trivial, fun now => ?_⟩
  refine follows_call.mpr ⟨rfl, fun answer => ?_⟩
  apply Follows.bind (follows_collectRecords _ (replyElements answer)
    ⟨rfl, fun _ => rfl⟩)
  rintro records τ hτ ⟨hidle, hrecords⟩
  apply follows_scanRecords records hidle.1
  intro hsound
  obtain ⟨hsublist, hread⟩ := hrecords hsound
  refine ⟨?_, fun record hrecord => ⟨hread record hrecord, hidle.2 _⟩⟩
  have hnodup := hsound.index _ answer (hτ.mem List.mem_cons_self)
  exact hnodup.sublist hsublist

/-! ## The count and the pushes -/

variable {P : Platform}

/-- The step sends the push of a retry of the message.  The delivery thread
sends no other pushes. -/
def ServerLabel.sendsRetry (id : UInt64) : ServerLabel → Bool
  | .execute _ job (.sendEnvelope _ envelope) _ =>
      job.task = .scan ∧ envelope.chatPush?.map ChatPush.msgId = some id
  | _ => false

/-- The pushes that retries of the message have sent. -/
def retryPushes (e : ServerRun P) (id : UInt64) : ℕ :=
  e.history.countP fun x => x.2.sendsRetry id

/-- The message whose retry is in progress. -/
def retrying (e : ServerRun P) : Option UInt64 :=
  (e.state.running .delivery).bind fun x => owing ((serverThreads P).trace e x.1)

/-- The account of retries. -/
structure Counted (e : ServerRun P) : Prop where
  exact : ∀ id, e.ledger.retryCountOf id =
    retryPushes e id + if retrying e = some id then 1 else 0
  bound : ∀ id, e.ledger.retryCountOf id ≤ kMaxDeliveryRetryCount
  sound : ∀ job code, e.state.running .delivery = some (job, code) →
    Sound ((serverThreads P).trace e job)
  current : ∀ job code, e.state.running .delivery = some (job, code) →
    ∀ id record, HasRead ((serverThreads P).trace e job) id record →
      (∃ m, e.ledger.find id = some m) ∧
        e.ledger.retryCountOf id = record.retryCount +
          tally (countsRetry id) ((serverThreads P).trace e job)

section Steps

variable {e e' : ServerRun P} {l : ServerLabel}

theorem retryPushes_next (hnext : Execution.Next e l e') (id : UInt64) :
    retryPushes e' id =
      retryPushes e id + if l.sendsRetry id then 1 else 0 := by
  rw [retryPushes, hnext.2, List.countP_cons]
  rfl

/-- The delivery thread is left alone, or changes between jobs. -/
def ChangesJob (e e' : ServerRun P) : Prop :=
  (e'.state.running .delivery = e.state.running .delivery ∧
    ∀ job code, e.state.running .delivery = some (job, code) →
      (serverThreads P).trace e' job = (serverThreads P).trace e job) ∨
  (retrying e = none ∧ ∀ job code,
    e'.state.running .delivery = some (job, code) →
      (serverThreads P).trace e' job = [])

theorem not_hasRead_nil {id : UInt64} {record : MessageRecord} :
    ¬HasRead [] id record := by
  rintro ⟨answer, hmem, -⟩
  cases hmem

/-- A step that counts nothing and sends no retry keeps the account, if the
delivery thread does nothing in it. -/
theorem Counted.of_changesJob (h : Counted e) (hnext : Execution.Next e l e')
    (hthread : ChangesJob e e')
    (hcount : ∀ id, e'.ledger.retryCountOf id = e.ledger.retryCountOf id)
    (hpush : ∀ id, l.sendsRetry id = false) : Counted e' := by
  have hpushes : ∀ id, retryPushes e' id = retryPushes e id := by
    intro id
    rw [retryPushes_next hnext, hpush id]
    rfl
  have hbound : ∀ id, e'.ledger.retryCountOf id ≤ kMaxDeliveryRetryCount := by
    intro id
    rw [hcount id]
    exact h.bound id
  rcases hthread with ⟨hrunning, htrace⟩ | ⟨hidle, hfresh⟩
  · refine ⟨?_, hbound, ?_, ?_⟩
    · intro id
      have hretrying : retrying e' = retrying e := by
        rw [retrying, retrying, hrunning]
        cases hjob : e.state.running .delivery with
        | none => rfl
        | some x => exact congrArg owing (htrace x.1 x.2 hjob)
      rw [hcount id, hpushes id, hretrying]
      exact h.exact id
    · intro job code hjob
      rw [hrunning] at hjob
      rw [htrace job code hjob]
      exact h.sound job code hjob
    · intro job code hjob id record hread
      rw [hrunning] at hjob
      rw [htrace job code hjob] at hread ⊢
      obtain ⟨⟨m, hm⟩, hcurrent⟩ := h.current job code hjob id record hread
      obtain ⟨m', hm', -⟩ := (ServerRun.extends_later hnext.later).2 id m hm
      refine ⟨⟨m', hm'⟩, ?_⟩
      rw [hcount id]
      exact hcurrent
  · have hidle' : retrying e' = none := by
      rw [retrying]
      cases hjob : e'.state.running .delivery with
      | none => rfl
      | some x =>
          rw [Option.bind_some, hfresh x.1 x.2 hjob]
          rfl
    refine ⟨?_, hbound, ?_, ?_⟩
    · intro id
      rw [hcount id, hpushes id, hidle', h.exact id, hidle]
    · intro job code hjob
      rw [hfresh job code hjob]
      constructor
      · intro id record hread
        exact absurd hread not_hasRead_nil
      · intro maxScore answer hmem
        cases hmem
    · intro job code hjob id record hread
      rw [hfresh job code hjob] at hread
      exact absurd hread not_hasRead_nil

theorem task_of_delivery (e : ServerRun P) {job : Job} {code : Handler Unit}
    (hrunning : e.state.running .delivery = some (job, code)) :
    job.task = .scan := by
  have hthread := (ServerRun.assigned e).running _ job code hrunning
  rw [Job.thread] at hthread
  split at hthread
  · cases hthread
  · assumption

/-- What the delivery thread has left to do follows the rule. -/
theorem follows_scan (e : ServerRun P) {job : Job} {code : Handler Unit}
    (hrunning : e.state.running .delivery = some (job, code)) :
    Follows ScanRule (fun τ _ => owing τ = none) code
      ((serverThreads P).trace e job) := by
  have hcode : job.code = deliveryScan := by
    rw [Job.code, task_of_delivery e hrunning]
  have hfollows := follows_deliveryScan
  rw [← hcode] at hfollows
  exact follows_job hfollows e hrunning

/-- What the delivery thread does when it issues no command. -/
theorem changesJob_of_next (hnext : Execution.Next e l e')
    (hother : ∀ job command answer, l ≠ .execute .delivery job command answer) :
    ChangesJob e e' := by
  have hstep : ServerStep P e.state l e'.state := hnext.1
  have htrace : ∀ job : Job, job.task = .scan →
      (serverThreads P).trace e' job = (serverThreads P).trace e job := by
    intro job hscan
    apply ThreadPool.trace_next_of_other hnext
    intro a ha
    obtain ⟨t, rfl⟩ := ServerLabel.action_eq_some.mp ha
    obtain ⟨next, -, hrunning, -, -⟩ := hstep.execute_inv
    have hthread := (ServerRun.assigned e).running t job _ hrunning
    rw [Job.thread, hscan] at hthread
    subst hthread
    exact hother _ _ _ rfl
  cases hjob : e.state.running .delivery with
  | none =>
      right
      refine ⟨by rw [retrying, hjob]; rfl, ?_⟩
      intro job code hrunning
      rcases hstep.running hrunning with
        ⟨hsame, -⟩ | ⟨-, rfl⟩ | ⟨command, next, answer, hbefore, -, -⟩
      · rw [hjob] at hsame
        cases hsame
      · exact trace_of_begin hnext ⟨.delivery, rfl⟩
      · rw [hjob] at hbefore
        cases hbefore
  | some x =>
      obtain ⟨job, code⟩ := x
      rcases hstep.goesOn hjob with
        hsame | ⟨command, next, answer, -, rfl, -⟩ | ⟨rfl, rfl⟩
      · left
        rw [hjob, hsame]
        refine ⟨rfl, ?_⟩
        intro job' code' heq
        cases heq
        exact htrace job (task_of_delivery e hjob)
      · exact absurd rfl (hother job command answer)
      · right
        constructor
        · rw [retrying, hjob]
          exact follows_done.mp (follows_scan e hjob)
        · intro job' code' hrunning
          rw [hstep.finish_inv.2] at hrunning
          cases hrunning

theorem retryCountOf_next (hnext : Execution.Next e l e') {id : UInt64}
    (hother : ∀ t job answer,
      l ≠ .execute t job (.redis (.evalIncrementRetryScript id)) answer) :
    e'.ledger.retryCountOf id = e.ledger.retryCountOf id := by
  rcases ServerRun.ledger_next hnext with
    hsame | ⟨t, job, request, answer, rfl, hafter⟩
  · rw [hsame]
  · rw [hafter]
    apply Ledger.retryCountOf_after
    rintro rfl
    exact hother t job answer rfl

/-- The handlers of events count no retries. -/
theorem increment_not_of_event {t : Thread} {job : Job} {event : ServerEvent}
    {id : UInt64} {next : Option Reply → Handler Unit}
    (hjob : job.task = .event event) :
    e.state.running t ≠
      some (job, .call (.redis (.evalIncrementRetryScript id)) next) := by
  intro hrunning
  rcases rareFree_of_running e hjob hrunning with
    hfree | ⟨conn, envelope, -, -, huid, heq⟩
  · exact (avoids_call.mp hfree).1 trivial
  · rw [handleLogin_eq conn huid] at heq
    cases heq

theorem Counted.event {t : Thread} {job : Job} {command : Command}
    {answer : command.Answer} {event : ServerEvent} (h : Counted e)
    (hnext : Execution.Next e (.execute t job command answer) e')
    (hjob : job.task = .event event) : Counted e' := by
  have hstep : ServerStep P e.state (.execute t job command answer)
      e'.state := hnext.1
  obtain ⟨next, -, hrunning, -, -⟩ := hstep.execute_inv
  apply h.of_changesJob hnext
  · apply changesJob_of_next hnext
    intro job' command' answer' hl
    cases hl
    have hscan := task_of_delivery e hrunning
    rw [hjob] at hscan
    cases hscan
  · intro id
    apply retryCountOf_next hnext
    intro t' job' answer' hl
    cases hl
    exact increment_not_of_event hjob hrunning
  · intro id
    cases command with
    | sendEnvelope conn envelope => simp [ServerLabel.sendsRetry, hjob]
    | _ => rfl

end Steps

/-! ## The commands of a scan -/

section Scan

variable {e e' : ServerRun P} {job : Job} {command : Command}
  {answer : command.Answer}

/-- The account after a command of the delivery thread, from the new past of its
job. -/
theorem Counted.of_scan
    (hnext : Execution.Next e (.execute .delivery job command answer) e')
    {τ : ServerTrace} (hτ : (serverThreads P).trace e' job = τ)
    (hexact : ∀ id, e'.ledger.retryCountOf id =
      retryPushes e' id + if owing τ = some id then 1 else 0)
    (hbound : ∀ id, e'.ledger.retryCountOf id ≤ kMaxDeliveryRetryCount)
    (hsound : Sound τ)
    (hcurrent : ∀ id record, HasRead τ id record →
      (∃ m, e'.ledger.find id = some m) ∧
        e'.ledger.retryCountOf id =
          record.retryCount + tally (countsRetry id) τ) :
    Counted e' := by
  have hstep : ServerStep P e.state (.execute .delivery job command answer)
      e'.state := hnext.1
  obtain ⟨next, s', -, -, hstate⟩ := hstep.execute_inv
  have hrunning : e'.state.running .delivery = some (job, next answer) := by
    simp only [hstate, ServerState.setRunning, Function.update_self]
  have hretrying : retrying e' = owing τ := by
    rw [retrying, hrunning, ← hτ]
    rfl
  refine ⟨?_, hbound, ?_, ?_⟩
  · intro id
    rw [hretrying]
    exact hexact id
  · intro job' code hjob
    rw [hrunning] at hjob
    cases hjob
    rw [hτ]
    exact hsound
  · intro job' code hjob
    rw [hrunning] at hjob
    cases hjob
    rw [hτ]
    exact hcurrent

/-- A retry is owed from when it is counted until its push is sent. -/
theorem owing_step {τ : ServerTrace} (hrule : ScanRule τ command)
    (hscan : job.task = .scan) (id : UInt64) :
    (if owing τ = some id then 1 else 0) + countsRetry id ⟨command, answer⟩ =
      (if (ServerLabel.execute .delivery job command answer).sendsRetry id then 1
        else 0) +
      if owing (⟨command, answer⟩ :: τ) = some id then 1 else 0 := by
  have hquiet : countsRetry id ⟨command, answer⟩ = 0 →
      (ServerLabel.execute .delivery job command answer).sendsRetry id = false →
      owing (⟨command, answer⟩ :: τ) = owing τ →
      (if owing τ = some id then 1 else 0) +
          countsRetry id ⟨command, answer⟩ =
        (if (ServerLabel.execute .delivery job command answer).sendsRetry id
          then 1 else 0) +
        if owing (⟨command, answer⟩ :: τ) = some id then 1 else 0 := by
    intro hcounts hsends howing
    rw [hcounts, hsends, howing]
    exact Nat.add_comm _ _
  cases command with
  | nowMs => exact hquiet rfl rfl rfl
  | sendEnvelope conn envelope =>
      obtain ⟨push, hpush, howing⟩ := hrule
      simp [howing, ServerLabel.sendsRetry, hscan, hpush, countsRetry, owing]
  | redis request =>
      cases request with
      | evalIncrementRetryScript id' =>
          have howing : owing τ = none := hrule.1
          simp [howing, ServerLabel.sendsRetry, countsRetry, owing]
      | hmgetRecord id' => exact hquiet rfl rfl hrule.1.symm
      | _ => exact hquiet rfl rfl hrule.symm
  | _ => exact hquiet rfl rfl hrule.symm

theorem rule_of_scan
    (hnext : Execution.Next e (.execute .delivery job command answer) e') :
    job.task = .scan ∧ ScanRule ((serverThreads P).trace e job) command ∧
      ∃ next, e.state.running .delivery = some (job, .call command next) := by
  have hstep : ServerStep P e.state (.execute .delivery job command answer)
      e'.state := hnext.1
  obtain ⟨next, -, hrunning, -, -⟩ := hstep.execute_inv
  exact ⟨task_of_delivery e hrunning,
    (follows_call.mp (follows_scan e hrunning)).1, next, hrunning⟩

/-- A retry is counted below the limit only. -/
theorem Counted.increment {id : UInt64} {answer : Option Reply} (h : Counted e)
    (hnext : Execution.Next e (.execute .delivery job
      (.redis (.evalIncrementRetryScript id)) answer) e')
    (hanswered : Answered (.execute .delivery job
      (.redis (.evalIncrementRetryScript id)) answer)) :
    e'.ledger.retryCountOf id = e.ledger.retryCountOf id + 1 ∧
      e.ledger.retryCountOf id < kMaxDeliveryRetryCount := by
  obtain ⟨-, ⟨-, hallowed⟩, next, hrunning⟩ := rule_of_scan hnext
  obtain ⟨hzero, record, hread, hlimit⟩ :=
    hallowed (h.sound job _ hrunning)
  obtain ⟨⟨m, hm⟩, hcurrent⟩ := h.current job _ hrunning id record hread
  rw [hzero] at hcurrent
  have hbelow : e.ledger.retryCountOf id < kMaxDeliveryRetryCount := by
    rw [hcurrent]
    simpa using hlimit
  refine ⟨?_, hbelow⟩
  rw [(ledger_of_answered hnext hanswered).2]
  apply Ledger.retryCountOf_after_increment hm
  rw [Ledger.retryCountOf_eq hm] at hbelow
  simp only [kMaxDeliveryRetryCount] at hbelow
  omega

/-- The count follows the commands of the scan. -/
theorem Counted.retryCountOf_scan (h : Counted e)
    (hnext : Execution.Next e (.execute .delivery job command answer) e')
    (hanswered : Answered (.execute .delivery job command answer))
    (id : UInt64) :
    e'.ledger.retryCountOf id =
      e.ledger.retryCountOf id + countsRetry id ⟨command, answer⟩ := by
  by_cases hcounts : command = .redis (.evalIncrementRetryScript id)
  · subst hcounts
    rw [(h.increment hnext hanswered).1]
    simp [countsRetry]
  · have hzero : countsRetry id ⟨command, answer⟩ = 0 := if_neg hcounts
    rw [hzero, Nat.add_zero]
    apply retryCountOf_next hnext
    intro t job' answer' hl
    cases hl
    exact hcounts rfl

theorem toInt32_small {n : ℕ} (h : (n : ℤ) ≤ kMaxDeliveryRetryCount) :
    toInt32 n = n := by
  simp only [kMaxDeliveryRetryCount] at h
  rw [toInt32, Int.bmod_def]
  split
  · omega
  · omega

/-- What a scan reads is what the store has. -/
theorem answers_of_scan
    (hnext : Execution.Next e (.execute .delivery job command answer) e')
    (hanswered : Answered (.execute .delivery job command answer)) :
    (∀ id answer', (⟨command, answer⟩ : Σ c : Command, c.Answer) =
        ⟨.redis (.hmgetRecord id), answer'⟩ →
      readRecordReply answer' =
        (e.ledger.find id).map fun m => m.record id) ∧
    (∀ maxScore answer', (⟨command, answer⟩ : Σ c : Command, c.Answer) =
        ⟨.redis (.zrangebyscoreTimeout maxScore), answer'⟩ →
      ((replyElements answer').filterMap parseUint64).Nodup) := by
  constructor
  · intro id answer' heq
    cases heq
    obtain ⟨reply, hrun, hreply⟩ := run_hmgetRecord e.represents id
    have hanswer := (ledger_of_answered hnext hanswered).1
    simp only [StoreDb.run, hrun] at hanswer
    rw [hanswer, hreply]
  · intro maxScore answer' heq
    cases heq
    obtain ⟨ids, hrun, hnodup, -⟩ :=
      run_zrangebyscoreTimeout e.represents maxScore
    have hanswer := (ledger_of_answered hnext hanswered).1
    simp only [StoreDb.run, hrun] at hanswer
    rw [hanswer, filterMap_replyOfIds]
    exact hnodup

theorem Counted.scan (h : Counted e)
    (hnext : Execution.Next e (.execute .delivery job command answer) e')
    (hanswered : Answered (.execute .delivery job command answer)) :
    Counted e' := by
  obtain ⟨hscan, hrule, next, hrunning⟩ := rule_of_scan hnext
  obtain ⟨hrecord, hindex⟩ := answers_of_scan hnext hanswered
  have hcount := h.retryCountOf_scan hnext hanswered
  have hretrying : retrying e = owing ((serverThreads P).trace e job) := by
    rw [retrying, hrunning]
    rfl
  have hsound := h.sound job _ hrunning
  apply Counted.of_scan hnext (ThreadPool.trace_next_of_action hnext rfl)
  · intro id
    have hbalance := @owing_step job command answer _ hrule hscan id
    have hexact := h.exact id
    rw [hretrying] at hexact
    rw [hcount id, hexact, retryPushes_next hnext]
    omega
  · intro id
    by_cases hcounts : command = .redis (.evalIncrementRetryScript id)
    · subst hcounts
      obtain ⟨hplus, hbelow⟩ := h.increment hnext hanswered
      rw [hplus]
      omega
    · have hzero : countsRetry id ⟨command, answer⟩ = 0 := if_neg hcounts
      rw [hcount id, hzero]
      exact h.bound id
  · constructor
    · rintro id record ⟨answer', hmem, hread⟩
      rcases List.mem_cons.mp hmem with hhead | hpast
      · rw [hrecord id answer' hhead.symm, Option.map_eq_some_iff] at hread
        obtain ⟨m, -, rfl⟩ := hread
        rfl
      · exact hsound.record id record ⟨answer', hpast, hread⟩
    · intro maxScore answer' hmem
      rcases List.mem_cons.mp hmem with hhead | hpast
      · exact hindex maxScore answer' hhead.symm
      · exact hsound.index maxScore answer' hpast
  · rintro id record ⟨answer', hmem, hread⟩
    rw [tally_cons, hcount id]
    rcases List.mem_cons.mp hmem with hhead | hpast
    · rw [hrecord id answer' hhead.symm, Option.map_eq_some_iff] at hread
      obtain ⟨m, hm, rfl⟩ := hread
      cases hhead
      obtain ⟨m', hm', -⟩ := (ServerRun.extends_later hnext.later).2 id m hm
      refine ⟨⟨m', hm'⟩, ?_⟩
      have hbound := h.bound id
      rw [Ledger.retryCountOf_eq hm] at hbound ⊢
      rw [hrule.2 id]
      simp [Message.record, toInt32_small hbound]
    · obtain ⟨⟨m, hm⟩, hcurrent⟩ :=
        h.current job _ hrunning id record ⟨answer', hpast, hread⟩
      obtain ⟨m', hm', -⟩ := (ServerRun.extends_later hnext.later).2 id m hm
      refine ⟨⟨m', hm'⟩, ?_⟩
      push_cast
      rw [hcurrent]
      ring

end Scan

/-- The account holds in every run in which Redis answers. -/
theorem counted (e : ServerRun P) (hanswered : ∀ x ∈ e.history, Answered x.2) :
    Counted e := by
  revert hanswered
  apply Execution.induct (P := fun e : ServerRun P =>
    (∀ x ∈ e.history, Answered x.2) → Counted e)
  · intro e hnil hinit _
    have hs : e.state = {} := hinit
    have hzero : ∀ id, (ServerRun.ledger e).retryCountOf id = 0 := by
      intro id
      rw [ServerRun.ledger, hs, StoreDb.ledger_empty]
      rfl
    have hidle : e.state.running .delivery = none := by
      rw [hs]
    constructor
    · intro id
      rw [hzero id, retryPushes, hnil, retrying, hidle]
      rfl
    · intro id
      rw [hzero id]
      decide
    · intro job code hrunning
      rw [hidle] at hrunning
      cases hrunning
    · intro job code hrunning
      rw [hidle] at hrunning
      cases hrunning
  · intro e e' l ih hnext hanswered
    have hbefore : Counted e :=
      ih fun x hx => hanswered x (hnext.later.mem_history hx)
    have hl : Answered l := hanswered _ hnext.mem_history
    by_cases hexecute :
        ∃ t job command answer, l = .execute t job command answer
    · obtain ⟨t, job, command, answer, rfl⟩ := hexecute
      have hstep : ServerStep P e.state (.execute t job command answer)
          e'.state := hnext.1
      obtain ⟨next, -, hrunning, -, -⟩ := hstep.execute_inv
      cases htask : job.task with
      | event event => exact hbefore.event hnext htask
      | scan =>
          have hthread := (ServerRun.assigned e).running t job _ hrunning
          rw [Job.thread, htask] at hthread
          subst hthread
          exact hbefore.scan hnext hl
    · apply hbefore.of_changesJob hnext
      · apply changesJob_of_next hnext
        intro job command answer heq
        exact hexecute ⟨_, _, _, _, heq⟩
      · intro id
        apply retryCountOf_next hnext
        intro t job answer heq
        exact hexecute ⟨_, _, _, _, heq⟩
      · intro id
        cases l with
        | execute t job command answer => exact absurd ⟨_, _, _, _, rfl⟩ hexecute
        | _ => rfl

/-! ## Bounded redelivery -/

/-- The stored message has this retry count. -/
def RetryCount (db : Db) (id : UInt64) (n : ℕ) : Prop :=
  fieldOf db (makeMessageKey id) (literal "retry_count") = some (render n)

theorem retryCount_iff {db : Db} {L : Ledger}
    (hL : Represents (entriesOf db) L) (id : UInt64) (n : ℕ) :
    RetryCount db id n ↔ ∃ m, L.find id = some m ∧ m.retryCount = n := by
  cases hm : L.find id with
  | none => simp [RetryCount, hL.fields_noMessage hm]
  | some m => simp [RetryCount, field_retryCount (hL.fields_message hm)]

/-- Redelivery is bounded.  The retry count of a stored message is the number of
pushes that its retries have sent, and one more while the push of the retry that
was just counted is still to come.  It never decreases and never exceeds the
limit.  A message that has failed, or is about to be marked so, has reached the
limit. -/
theorem bounded_redelivery (e : ServerRun P)
    (hanswered : ∀ x ∈ e.history, Answered x.2) (id : UInt64) :
    (HasMessage e.state.store.db id → ∃ n, RetryCount e.state.store.db id n) ∧
    (∀ n, RetryCount e.state.store.db id n →
      n = retryPushes e id + (if retrying e = some id then 1 else 0) ∧
      n ≤ kMaxDeliveryRetryCount ∧
      (∀ (e₀ : ServerRun P) n₀, Execution.Later e₀ e → RetryCount e₀.state.store.db id n₀ →
        n₀ ≤ n) ∧
      (fieldOf e.state.store.db (makeMessageKey id) (literal "status") =
        some (literal "Failed") → n = kMaxDeliveryRetryCount)) ∧
    (∀ (e₀ : ServerRun P) t job now answer,
      Execution.Next e₀ (.execute t job
        (.redis (.evalMsgStateScript .markFailed id now)) answer) e →
      ∃ n, RetryCount e₀.state.store.db id n ∧ n = kMaxDeliveryRetryCount) := by
  have hcounted := counted e hanswered
  refine ⟨?_, ?_, ?_⟩
  · intro hmessage
    obtain ⟨m, hm⟩ := (hasMessage_iff e.represents id).mp hmessage
    exact ⟨m.retryCount, (retryCount_iff e.represents id _).mpr ⟨m, hm, rfl⟩⟩
  · intro n hn
    obtain ⟨m, hm, rfl⟩ := (retryCount_iff e.represents id n).mp hn
    have hbound := hcounted.bound id
    rw [Ledger.retryCountOf_eq hm] at hbound
    refine ⟨?_, hbound, ?_, ?_⟩
    · rw [← Ledger.retryCountOf_eq hm]
      exact hcounted.exact id
    · intro e₀ n₀ hlater hn₀
      obtain ⟨m₀, hm₀, rfl⟩ := (retryCount_iff (ServerRun.represents e₀) id n₀).mp hn₀
      obtain ⟨m', hm', -, hle⟩ :=
        (ServerRun.extends_later hlater).2 id m₀ hm₀
      rw [hm, Option.some.injEq] at hm'
      subst hm'
      exact hle
    · intro hfailed
      obtain ⟨m', hm', hstatus⟩ :=
        (e.represents.status_iff id .failed).mp hfailed
      rw [hm, Option.some.injEq] at hm'
      subst hm'
      have hreached := (accounted e id m hm).failed hstatus
      omega
  · intro e₀ t job now answer hnext
    obtain ⟨m, hm, hreached⟩ : Justified job e₀
        (.redis (.evalMsgStateScript .markFailed id now)) :=
      justified_of_next hnext
    have hbound := (counted e₀ fun x hx =>
      hanswered x (hnext.later.mem_history hx)).bound id
    rw [Ledger.retryCountOf_eq hm] at hbound
    refine ⟨m.retryCount, (retryCount_iff (ServerRun.represents e₀) id _).mpr
      ⟨m, hm, rfl⟩, ?_⟩
    omega

/-- User 1 writes a note to self and does not acknowledge it; the delivery
thread sends it again. -/
def unacknowledged : List Choice :=
  [.connect 0, .receive 0 (loginAs 1)] ++ complete 0 20 ++
    [.receive 0 (chatFrom 1 1 7 (literal "hi") (literal "a"))] ++
    complete 0 14 ++ [.beginScan] ++
    List.replicate 8 (.call .delivery 100000)

theorem bounded_redelivery_unacknowledged :
    ∃ e : ServerRun wirePlatform, RetryCount e.state.store.db 1 1 ∧
      1 = retryPushes e 1 + (if retrying e = some 1 then 1 else 0) := by
  obtain ⟨e, hstate, hhistory⟩ := exists_run wirePlatform unacknowledged
  have hanswered : ∀ x ∈ e.history, Answered x.2 := by
    rintro ⟨s, l⟩ hmem t job request answer rfl
    rw [hhistory, List.mem_reverse] at hmem
    exact answer_ne_none_of_trace hmem
  have hcount : RetryCount e.state.store.db 1 1 := by
    rw [hstate, RetryCount]
    decide +kernel
  exact ⟨e, hcount, ((bounded_redelivery e hanswered 1).2.1 1 hcount).1⟩

end ReliableDelivery
