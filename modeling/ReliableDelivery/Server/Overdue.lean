import ReliableDelivery.Server.Retries

/-!
# Overdue messages

`deliveryLoop` is there so that no message waits for its acknowledgement without
end.  A scan that reads the index of delivered messages fetches every message
that has been delivered for too long, and is then bound to count a retry of it or
to give it up, whatever the other threads do in the meantime.
-/

namespace ReliableDelivery

open Decimal Redis MessageStore EnvelopeFactory TransitionSystem Program

/-! ## What a scan does about a record -/

/-- What a scan keeps of the records that it fetches. -/
def overdue (now : UInt64) (record : MessageRecord) : Bool :=
  record.status = .delivered && decide (0 < record.deliveredAtMs) &&
    decide (record.deliveredAtMs ≤ now) &&
    decide (kAckTimeoutMs ≤ now - record.deliveredAtMs)

/-- The highest score that a scan asks for. -/
def latestDue (now : UInt64) : UInt64 :=
  if kAckTimeoutMs ≤ now then now - kAckTimeoutMs else 0

/-- The command counts a retry of the message, or gives it up for now or for
good. -/
def Resolves (id : UInt64) (command : Command) : Prop :=
  command = .redis (.evalIncrementRetryScript id) ∨ ∃ now,
    command = .redis (.evalMsgStateScript .markPending id now) ∨
      command = .redis (.evalMsgStateScript .markFailed id now)

def Resolved (τ : ServerTrace) (id : UInt64) : Prop :=
  ∃ a ∈ τ, Resolves id a.1

theorem Resolved.mono {τ τ' : ServerTrace} {id : UInt64} (h : Resolved τ id)
    (hτ : τ <:+ τ') : Resolved τ' id := by
  obtain ⟨a, hmem, ha⟩ := h
  exact ⟨a, hτ.mem hmem, ha⟩

/-- No condition on the commands. -/
abbrev Free (_ : ServerTrace) (_ : Command) : Prop :=
  True

theorem follows_free {α : Type} (p : Handler α) (τ : ServerTrace) :
    Follows Free (fun _ _ => True) p τ := by
  induction p generalizing τ with
  | done a => exact follows_done.mpr trivial
  | call command next ih =>
      exact follows_call.mpr ⟨trivial, fun answer => ih answer _⟩

/-- A mark that is made resolves the message. -/
theorem follows_evalMsgState_resolved {script : MsgStateScript} {id : UInt64}
    (τ : ServerTrace)
    (hscript : ∀ now, Resolves id (.redis (.evalMsgStateScript script id now))) :
    Follows Free (fun τ' _ => Resolved τ' id)
      (evalMsgState script id : Handler _) τ := by
  refine follows_call.mpr ⟨trivial, fun now => ?_⟩
  refine follows_call.mpr ⟨trivial, fun reply => ?_⟩
  exact follows_done.mpr ⟨_, List.mem_cons_self, hscript now⟩

theorem follows_retryDeliverMessage_resolved {record : MessageRecord}
    (τ : ServerTrace) (hstatus : record.status = .delivered) :
    Follows Free (fun τ' _ => Resolved τ' record.msgId)
      (retryDeliverMessage record) τ := by
  have hopen : ¬(record.status = .acked ∨ record.status = .failed) := by
    rw [hstatus]
    decide
  rw [retryDeliverMessage, if_neg hopen]
  apply Follows.bind (follows_free (onlineTarget record.toUid) τ)
  intro target τ₁ _ _
  rcases target with _ | conn
  · apply Follows.bind (follows_evalMsgState_resolved τ₁ fun now =>
      .inr ⟨now, .inl rfl⟩)
    intro _ τ₂ _ hresolved
    exact follows_done.mpr hresolved
  · refine follows_call.mpr ⟨trivial, fun answer => ?_⟩
    apply (follows_free (pushAndMark conn record) _).weaken
    intro _ τ₂ hτ₂ _
    exact Resolved.mono ⟨_, List.mem_cons_self, .inl rfl⟩ hτ₂

theorem follows_scanRecord_resolved {record : MessageRecord} (τ : ServerTrace)
    (hstatus : record.status = .delivered) :
    Follows Free (fun τ' _ => Resolved τ' record.msgId) (scanRecord record) τ := by
  rw [scanRecord]
  split
  · apply Follows.bind (follows_evalMsgState_resolved τ fun now =>
      .inr ⟨now, .inr rfl⟩)
    intro _ τ₁ _ hresolved
    exact follows_done.mpr hresolved
  · apply Follows.bind (follows_retryDeliverMessage_resolved τ hstatus)
    intro _ τ₁ _ hresolved
    exact follows_done.mpr hresolved

theorem follows_scanRecords_resolved (records : List MessageRecord)
    (τ : ServerTrace)
    (hstatus : ∀ record ∈ records, record.status = .delivered) :
    Follows Free (fun τ' _ => ∀ record ∈ records, Resolved τ' record.msgId)
      (forEach records scanRecord) τ := by
  induction records generalizing τ with
  | nil => exact follows_done.mpr (by simp)
  | cons record records ih =>
      apply Follows.bind (follows_scanRecord_resolved τ
        (hstatus record List.mem_cons_self))
      intro _ τ₁ _ hfirst
      apply (ih τ₁ fun record' hmem =>
        hstatus record' (List.mem_cons_of_mem _ hmem)).weaken
      intro _ τ₂ hτ₂ hrest record' hmem
      rcases List.mem_cons.mp hmem with rfl | hmem
      · exact hfirst.mono hτ₂
      · exact hrest record' hmem

/-! ## Which records a scan has read -/

def ReadsRecord : Command → Prop
  | .redis (.hmgetRecord _) => True
  | _ => False

/-- No record has been read since. -/
def NothingRead (τ τ' : ServerTrace) : Prop :=
  ∀ id record, HasRead τ' id record → HasRead τ id record

theorem NothingRead.cons {τ₀ τ : ServerTrace} {command : Command}
    (h : NothingRead τ₀ τ) (hcommand : ¬ReadsRecord command)
    (answer : command.Answer) :
    NothingRead τ₀ (⟨command, answer⟩ :: τ) := by
  rintro id record ⟨answer', hmem, hread⟩
  rcases List.mem_cons.mp hmem with heq | hmem
  · cases heq
    exact absurd trivial hcommand
  · exact h id record ⟨answer', hmem, hread⟩

theorem loud_of_readsRecord {command : Command} (h : ReadsRecord command) :
    Loud command := by
  unfold ReadsRecord at h
  split at h
  · trivial
  · exact h.elim

theorem avoids_evalMsgState_reads (script : MsgStateScript) (id : UInt64) :
    Avoids (fun _ _ => True) ReadsRecord (fun _ => True)
      (evalMsgState script id : Handler _) :=
  (quiet_evalMsgState script id).subset fun _ => loud_of_readsRecord

theorem avoids_pushAndMark_reads (conn : Conn) (record : MessageRecord) :
    Avoids (fun _ _ => True) ReadsRecord (fun _ => True)
      (pushAndMark conn record) := by
  have hpush : ∀ envelope : Envelope,
      Avoids (fun _ _ => True) ReadsRecord (fun _ => True)
        ((sendEnvelope conn envelope).bind fun _ =>
          (markDelivered record.msgId : Handler _).bind fun _ => .done true) := by
    intro envelope
    refine avoids_call.mpr ⟨not_false, fun _ _ => ?_⟩
    apply (avoids_evalMsgState_reads .markDelivered record.msgId).bind
    intro _ _
    exact avoids_done.mpr trivial
  refine avoids_call.mpr ⟨not_false, fun now _ => ?_⟩
  by_cases hstamp : record.createdAtMs = 0
  · simp only [hstamp, if_true]
    exact avoids_call.mpr ⟨not_false, fun stamp _ => hpush _⟩
  · simp only [hstamp, if_false]
    exact hpush _

theorem avoids_retryDeliverMessage_reads (record : MessageRecord) :
    Avoids (fun _ _ => True) ReadsRecord (fun _ => True)
      (retryDeliverMessage record) := by
  rw [retryDeliverMessage]
  split
  · exact avoids_done.mpr trivial
  · apply ((quiet_onlineTarget record.toUid).subset
      fun _ => loud_of_readsRecord).bind
    intro target _
    rcases target with _ | conn
    · apply (avoids_evalMsgState_reads .markPending record.msgId).bind
      intro _ _
      exact avoids_done.mpr trivial
    · refine avoids_call.mpr ⟨not_false, fun answer _ => ?_⟩
      exact avoids_pushAndMark_reads conn record

theorem avoids_scanRecord_reads (record : MessageRecord) :
    Avoids (fun _ _ => True) ReadsRecord (fun _ => True)
      (scanRecord record) := by
  rw [scanRecord]
  split
  · apply (avoids_evalMsgState_reads .markFailed record.msgId).bind
    intro _ _
    exact avoids_done.mpr trivial
  · apply (avoids_retryDeliverMessage_reads record).bind
    intro _ _
    exact avoids_done.mpr trivial

/-- The loop resolves every record and reads no more of them. -/
theorem follows_scanRecords_complete (records : List MessageRecord)
    (τ : ServerTrace)
    (hstatus : ∀ record ∈ records, record.status = .delivered) :
    Follows Free (fun τ' _ => NothingRead τ τ' ∧
      ∀ record ∈ records, Resolved τ' record.msgId)
      (forEach records scanRecord) τ := by
  have havoids : Avoids (fun _ _ => True) ReadsRecord (fun _ => True)
      (forEach records scanRecord) :=
    avoids_forEach fun record _ => avoids_scanRecord_reads record
  apply Safe.frame _ _ havoids (follows_scanRecords_resolved records τ hstatus)
  · exact fun _ _ hread => hread
  · rintro τ₁ _ hnothing rfl
    exact hnothing
  · rintro τ₁ command answer _ hnothing hcommand rfl
    exact hnothing.cons hcommand answer

/-! ## What a scan reads -/

/-- Every message that the elements name has been asked for, and of the records
that were read since, those that pass are the ones collected. -/
structure Fetched (keep : MessageRecord → Bool) (elements : List Reply)
    (τ τ' : ServerTrace) (records : List MessageRecord) : Prop where
  asked : ∀ element ∈ elements, ∀ id, id ≠ 0 →
    parseUint64 element = some id →
      ∃ answer, ⟨.redis (.hmgetRecord id), answer⟩ ∈ τ'
  found : ∀ id record, HasRead τ' id record → keep record = true →
    HasRead τ id record ∨ record ∈ records
  kept : ∀ record ∈ records, keep record = true

theorem Fetched.append {keep : MessageRecord → Bool} {xs ys : List Reply}
    {τ τ₁ τ₂ : ServerTrace} {records records' : List MessageRecord}
    (h : Fetched keep xs τ τ₁ records) (hτ : τ₁ <:+ τ₂)
    (h' : Fetched keep ys τ₁ τ₂ records') :
    Fetched keep (xs ++ ys) τ τ₂ (records ++ records') where
  asked element helement id hid hparse := by
    rcases List.mem_append.mp helement with hx | hy
    · obtain ⟨answer, hmem⟩ := h.asked element hx id hid hparse
      exact ⟨answer, hτ.mem hmem⟩
    · exact h'.asked element hy id hid hparse
  found id record hread hkeep := by
    rcases h'.found id record hread hkeep with hbefore | hnew
    · rcases h.found id record hbefore hkeep with hold | hfirst
      · exact .inl hold
      · exact .inr (List.mem_append_left _ hfirst)
    · exact .inr (List.mem_append_right _ hnew)
  kept record hmem := by
    rcases List.mem_append.mp hmem with hfirst | hrest
    · exact h.kept record hfirst
    · exact h'.kept record hrest

theorem follows_fetchElement_complete (keep : MessageRecord → Bool)
    (element : Reply) (τ : ServerTrace) :
    Follows Free (fun τ' o => Fetched keep [element] τ τ' o.toList)
      (fetchElement keep element : Handler _) τ := by
  have hnone : (∀ id, id ≠ 0 → parseUint64 element ≠ some id) →
      Fetched keep [element] τ τ [] := by
    intro hno
    refine ⟨?_, fun id record hread _ => .inl hread, by simp⟩
    intro element' hmem id hid hparse
    rw [List.mem_singleton] at hmem
    subst hmem
    exact absurd hparse (hno id hid)
  rw [fetchElement]
  split
  · next hparse =>
      refine follows_done.mpr (hnone ?_)
      intro id _ heq
      rw [hparse] at heq
      cases heq
  · next msgId hparse =>
      rw [fetchRecord]
      split
      · next hzero =>
          refine follows_done.mpr (hnone ?_)
          intro id hid heq
          rw [hparse, Option.some.injEq] at heq
          exact hid (heq.symm.trans hzero)
      · refine follows_call.mpr ⟨trivial, fun answer => ?_⟩
        change Follows Free _ (.done ((readRecordReply answer).filter keep)) _
        refine follows_done.mpr ⟨?_, ?_, ?_⟩
        · intro element' hmem id _ heq
          rw [List.mem_singleton] at hmem
          subst hmem
          rw [hparse, Option.some.injEq] at heq
          subst heq
          exact ⟨answer, List.mem_cons_self⟩
        · rintro id record ⟨answer', hmem, hread⟩ hkeep
          rcases List.mem_cons.mp hmem with heq | hmem
          · cases heq
            right
            rw [Option.mem_toList, Option.filter_eq_some_iff]
            exact ⟨hread, hkeep⟩
          · exact .inl ⟨answer', hmem, hread⟩
        · intro record hmem
          rw [Option.mem_toList,
            Option.filter_eq_some_iff] at hmem
          exact hmem.2

theorem follows_collect_complete (keep : MessageRecord → Bool)
    (elements : List Reply) (τ : ServerTrace) :
    Follows Free (fun τ' records => Fetched keep elements τ τ' records)
      (collect elements (fetchElement keep) : Handler _) τ := by
  induction elements generalizing τ with
  | nil =>
      refine follows_done.mpr ⟨by simp, ?_, by simp⟩
      exact fun id record hread _ => .inl hread
  | cons element elements ih =>
      apply Follows.bind (follows_fetchElement_complete keep element τ)
      intro found τ₁ _ hfirst
      apply Follows.bind (ih τ₁)
      intro records τ₂ hτ₂ hrest
      exact follows_done.mpr (hfirst.append hτ₂ hrest)

/-- The past of a scan that has come to its end.  It has read the clock and then
the index, has asked for every message listed, and has resolved every record that
it read as overdue. -/
structure Complete (now : UInt64) (answer : Option Reply) (τ : ServerTrace) :
    Prop where
  start : [⟨.redis (.zrangebyscoreTimeout (latestDue now)), answer⟩,
    ⟨.nowMs, now⟩] <:+ τ
  asked : ∀ id, id ≠ 0 → Lists answer id →
    ∃ reply, ⟨.redis (.hmgetRecord id), reply⟩ ∈ τ
  resolved : ∀ id record, HasRead τ id record → overdue now record = true →
    Resolved τ record.msgId

theorem Complete.getLast? {now : UInt64} {answer : Option Reply} {τ : ServerTrace}
    (h : Complete now answer τ) : τ.getLast? = some ⟨.nowMs, now⟩ := by
  obtain ⟨before, hbefore⟩ := h.start
  rw [← hbefore, List.getLast?_append]
  rfl

theorem follows_deliveryScan_complete :
    Follows Free (fun τ _ => ∃ now answer, Complete now answer τ)
      deliveryScan [] := by
  refine follows_call.mpr ⟨trivial, fun now => ?_⟩
  refine follows_call.mpr ⟨trivial, fun answer => ?_⟩
  apply Follows.bind (follows_collect_complete (overdue now)
    (replyElements answer) _)
  intro records τ hτ hfetched
  have hstatus : ∀ record ∈ records, record.status = .delivered := by
    intro record hmem
    have hkept := hfetched.kept record hmem
    simp only [overdue, Bool.and_eq_true, decide_eq_true_eq] at hkept
    exact hkept.1.1.1
  apply (follows_scanRecords_complete records τ hstatus).weaken
  rintro _ τ' hτ' ⟨hnothing, hresolved⟩
  refine ⟨now, answer, hτ.trans hτ', ?_, ?_⟩
  · rintro id hid ⟨element, helement, hparse⟩
    obtain ⟨reply, hmem⟩ := hfetched.asked element helement id hid hparse
    exact ⟨reply, hτ'.mem hmem⟩
  · intro id record hread hoverdue
    rcases hfetched.found id record (hnothing id record hread) hoverdue with
      ⟨reply, hmem, -⟩ | hmem
    · simp at hmem
    · exact hresolved record hmem

/-! ## Overdue messages in a run -/

variable {P : Platform}

/-- The stored message has been delivered, most recently at this time. -/
def DeliveredSince (db : Db) (id d : UInt64) : Prop :=
  fieldOf db (makeMessageKey id) (literal "status") =
      some (literal "Delivered") ∧
    fieldOf db (makeMessageKey id) (literal "delivered_at_ms") =
      some (toText d)

instance (db : Db) (id d : UInt64) : Decidable (DeliveredSince db id d) :=
  inferInstanceAs (Decidable (_ ∧ _))

theorem deliveredSince_iff {db : Db} {L : Ledger}
    (hL : Represents (entriesOf db) L) (id d : UInt64) :
    DeliveredSince db id d ↔ ∃ m, L.find id = some m ∧
      m.status = .delivered ∧ m.deliveredAtMs = d := by
  have hstatus := hL.status_iff id .delivered
  rw [MessageStatus.text] at hstatus
  rw [DeliveredSince, hstatus]
  cases hm : L.find id with
  | none => simp
  | some m =>
      have hfields := hL.fields_message hm
      simp only [recordFields, Message.texts, List.map_cons,
        List.cons.injEq] at hfields
      simp [hfields.2.2.2.2.2.2.2.1]

theorem Ledger.find_ne_zero {L : Ledger} {id : UInt64} {m : Message}
    (hm : L.find id = some m) : id ≠ 0 := by
  rintro rfl
  have hnumbered := (L.numbered 0).mp (by rw [hm]; rfl)
  exact absurd hnumbered.1 (by decide)

/-- The timeout index lists a delivered message under its time. -/
theorem lists_run_timeout {db : Db} {L : Ledger}
    (hL : Represents (entriesOf db) L) {id maxScore : UInt64} {m : Message}
    (hm : L.find id = some m) (hstatus : m.status = .delivered)
    (hle : m.deliveredAtMs.toNat ≤ maxScore.toNat) :
    Lists (some ((RedisRequest.zrangebyscoreTimeout maxScore).run db).1) id := by
  obtain ⟨set, hset, hindexes⟩ := hL.timeout
  have hentry : (m.deliveredAtMs.toNat, toText id) ∈ set.entries :=
    SortedSet.mem_entries_iff.mpr ((hindexes _ _).mpr
      ⟨id, m, rfl, hm, by rw [timeoutScore, if_pos hstatus]⟩)
  have hrun : (RedisRequest.zrangebyscoreTimeout maxScore).run db =
      (replyOfMembers (set.entries.filter fun e => e.1 ≤ maxScore.toNat), db) :=
    eval_ok (Script.bind_ok (zentries_run hset))
  refine ⟨.bulk (toText id), ?_, parseUint64_toText id⟩
  rw [hrun]
  simp only [replyElements, replyOfMembers, List.mem_map, List.mem_filter]
  exact ⟨_, ⟨hentry, by simpa using hle⟩, rfl⟩

section Scans

variable {e e' : ServerRun P} {job : Job}

theorem scan_of_finish (hnext : Execution.Next e (.finish .delivery job) e') :
    job.task = .scan := by
  have hstep : ServerStep P e.state (.finish .delivery job) e'.state := hnext.1
  exact task_of_delivery e hstep.finish_inv.1

/-- A scan that finishes is complete, and no retry is in progress then. -/
theorem complete_of_finish (hnext : Execution.Next e (.finish .delivery job) e') :
    (∃ now answer, Complete now answer ((serverThreads P).trace e job)) ∧
      retrying e' = none := by
  have hstep : ServerStep P e.state (.finish .delivery job) e'.state := hnext.1
  obtain ⟨hrunning, hidle⟩ := hstep.finish_inv
  have hcode : job.code = deliveryScan := by
    rw [Job.code, scan_of_finish hnext]
  have hfollows := follows_deliveryScan_complete
  rw [← hcode] at hfollows
  refine ⟨follows_done.mp (follows_job hfollows e hrunning), ?_⟩
  rw [retrying, hidle]
  rfl

/-- Scans run on the delivery thread. -/
theorem thread_of_scan {t : Thread} {command : Command}
    {answer : command.Answer}
    (hnext : Execution.Next e (.execute t job command answer) e')
    (hscan : job.task = .scan) : t = .delivery := by
  have hstep : ServerStep P e.state (.execute t job command answer)
      e'.state := hnext.1
  obtain ⟨next, -, hrunning, -, -⟩ := hstep.execute_inv
  have hthread := (ServerRun.assigned e).running t job _ hrunning
  rw [Job.thread, hscan] at hthread
  exact hthread.symm

/-- A scan asks for the index once it has read the clock. -/
theorem exists_index_read {now : UInt64} {reply : Option Reply}
    (hcomplete : Complete now reply ((serverThreads P).trace e job))
    (hscan : job.task = .scan) :
    ∃ e₁ e₂ : ServerRun P,
      (serverThreads P).trace e₁ job = [⟨.nowMs, now⟩] ∧
      Execution.Next e₁ (.execute .delivery job
        (.redis (.zrangebyscoreTimeout (latestDue now))) reply) e₂ ∧
      Execution.Later e₂ e := by
  obtain ⟨e₁, e₂, l, hnext, hlater, haction, htrace⟩ :=
    ThreadPool.exists_next_of_trace hcomplete.start
  obtain ⟨t, rfl⟩ := ServerLabel.action_eq_some.mp haction
  obtain rfl : t = .delivery := thread_of_scan hnext hscan
  exact ⟨e₁, e₂, htrace, hnext, hlater⟩

/-- The index lists what is overdue when it is read. -/
theorem lists_of_index_read {e₁ e₂ : ServerRun P} {now id d : UInt64}
    {reply : Option Reply}
    (hread : Execution.Next e₁ (.execute .delivery job
      (.redis (.zrangebyscoreTimeout (latestDue now))) reply) e₂)
    (hanswered : Answered (.execute .delivery job
      (.redis (.zrangebyscoreTimeout (latestDue now))) reply))
    (hsince : DeliveredSince e₁.state.store.db id d)
    (hdue : d.toNat + kAckTimeoutMs.toNat ≤ now.toNat) :
    id ≠ 0 ∧ Lists reply id := by
  obtain ⟨m, hm, hstatus, rfl⟩ :=
    (deliveredSince_iff (ServerRun.represents e₁) id d).mp hsince
  refine ⟨Ledger.find_ne_zero hm, ?_⟩
  rw [(ledger_of_answered hread hanswered).1]
  apply lists_run_timeout (ServerRun.represents e₁) hm hstatus
  have hlate : kAckTimeoutMs ≤ now := by
    rw [UInt64.le_iff_toNat_le]
    omega
  rw [latestDue, if_pos hlate, UInt64.toNat_sub_of_le _ _ hlate]
  omega

/-- A message that the index lists is asked for; if it is still the same then, it
is found overdue. -/
theorem exists_record_read {e₂ : ServerRun P} {now id d : UInt64}
    {reply : Option Reply}
    (hcomplete : Complete now reply ((serverThreads P).trace e job))
    (hscan : job.task = .scan) (hlater : Execution.Later e₂ e)
    (hanswered : ∀ x ∈ e.history, Answered x.2)
    (hstart : (serverThreads P).trace e₂ job =
      [⟨.redis (.zrangebyscoreTimeout (latestDue now)), reply⟩, ⟨.nowMs, now⟩])
    (hid : id ≠ 0) (hlists : Lists reply id) (hpos : 0 < d)
    (hdue : d.toNat + kAckTimeoutMs.toNat ≤ now.toNat) :
    ∃ (f f' : ServerRun P) (answer : Option Reply), Execution.Later e₂ f ∧
      Execution.Next f
        (.execute .delivery job (.redis (.hmgetRecord id)) answer) f' ∧
      Execution.Later f' e ∧ (DeliveredSince f.state.store.db id d →
        ∃ record, HasRead ((serverThreads P).trace e job) id record ∧
          record.msgId = id ∧ overdue now record = true) := by
  obtain ⟨answer, hasked⟩ := hcomplete.asked id hid hlists
  obtain ⟨f, f', l, hf, hnext, hf', haction⟩ :=
    ThreadPool.exists_next_of_mem_trace hlater hasked (by simp [hstart])
  obtain ⟨t, rfl⟩ := ServerLabel.action_eq_some.mp haction
  obtain rfl : t = .delivery := thread_of_scan hnext hscan
  refine ⟨f, f', answer, hf, hnext, hf', ?_⟩
  intro hsince
  obtain ⟨m, hm, hstatus, rfl⟩ :=
    (deliveredSince_iff (ServerRun.represents f) id d).mp hsince
  have hread := (answers_of_scan hnext
    (hanswered _ (hf'.mem_history hnext.mem_history))).1 id answer rfl
  rw [hm, Option.map_some] at hread
  have hle : m.deliveredAtMs ≤ now := by
    rw [UInt64.le_iff_toNat_le]
    omega
  have hwait : kAckTimeoutMs ≤ now - m.deliveredAtMs := by
    rw [UInt64.le_iff_toNat_le, UInt64.toNat_sub_of_le _ _ hle]
    omega
  refine ⟨m.record id, ⟨answer, hasked, hread⟩, rfl, ?_⟩
  simp [overdue, Message.record, hstatus, hpos, hle, hwait]

/-- If it stays the same until the scan resolves it, the scan does so. -/
theorem resolved_of_listed {e₂ : ServerRun P} {now id d : UInt64}
    {reply : Option Reply}
    (hcomplete : Complete now reply ((serverThreads P).trace e job))
    (hscan : job.task = .scan) (hlater : Execution.Later e₂ e)
    (hanswered : ∀ x ∈ e.history, Answered x.2)
    (hstart : (serverThreads P).trace e₂ job =
      [⟨.redis (.zrangebyscoreTimeout (latestDue now)), reply⟩, ⟨.nowMs, now⟩])
    (hid : id ≠ 0) (hlists : Lists reply id) (hpos : 0 < d)
    (hdue : d.toNat + kAckTimeoutMs.toNat ≤ now.toNat)
    (hstays : ∀ e₃, Execution.Later e₂ e₃ → Execution.Later e₃ e →
      ¬Resolved ((serverThreads P).trace e₃ job) id →
        DeliveredSince e₃.state.store.db id d) :
    Resolved ((serverThreads P).trace e job) id := by
  obtain ⟨f, f', answer, hf, hnext, hf', hfound⟩ := exists_record_read hcomplete
    hscan hlater hanswered hstart hid hlists hpos hdue
  have hrest : Execution.Later f e := hnext.later.trans hf'
  by_cases hresolved : Resolved ((serverThreads P).trace f job) id
  · exact hresolved.mono (ThreadPool.trace_suffix hrest job)
  · obtain ⟨record, hread, rfl, hoverdue⟩ := hfound (hstays f hf hrest hresolved)
    exact hcomplete.resolved record.msgId record hread hoverdue

end Scans

/-! ## What becomes of an overdue message -/

/-- The stored message has this status. -/
def HasStatus (db : Db) (id : UInt64) (status : MessageStatus) : Prop :=
  fieldOf db (makeMessageKey id) (literal "status") = some status.text

theorem HasStatus.unique {db : Db} {id : UInt64} {a b : MessageStatus}
    (h : HasStatus db id a) (h' : HasStatus db id b) : a = b := by
  rw [HasStatus] at h h'
  rw [h, Option.some.injEq] at h'
  exact MessageStatus.text_injective h'

theorem hasStatus_of_mark {e e' : ServerRun P} {t : Thread} {job : Job}
    {script : MsgStateScript} {id now : UInt64} {answer : Option Reply}
    (hnext : Execution.Next e (.execute t job
      (.redis (.evalMsgStateScript script id now)) answer) e')
    (hanswered : Answered (.execute t job
      (.redis (.evalMsgStateScript script id now)) answer)) {m : Message}
    (hm : e.ledger.find id = some m) :
    HasStatus e'.state.store.db id ((script.change now).apply m).status := by
  refine (e'.represents.status_iff id _).mpr ⟨_, ?_, rfl⟩
  rw [(ledger_of_answered hnext hanswered).2, Ledger.after, Ledger.find_modify,
    if_pos rfl, hm, Option.map_some]

/-- What the scan makes of the message, by its retry count, the status it then has
and the pushes sent by the end of the run. -/
def Outcome (e₃ e₄ e' : ServerRun P) (id : UInt64) : Prop :=
  HasStatus e₄.state.store.db id .pending ∨
    (HasStatus e₄.state.store.db id .failed ∧
      ∃ n, RetryCount e₄.state.store.db id n ∧ n = kMaxDeliveryRetryCount) ∨
    ∃ n, RetryCount e₃.state.store.db id n ∧
      RetryCount e₄.state.store.db id (n + 1) ∧
      retryPushes e₃ id < retryPushes e' id

theorem retryCount_of_find {e : ServerRun P} {id : UInt64} {m : Message}
    (hm : e.ledger.find id = some m) :
    RetryCount e.state.store.db id (e.ledger.retryCountOf id) :=
  (retryCount_iff e.represents id _).mpr
    ⟨m, hm, (Ledger.retryCountOf_eq hm).symm⟩

theorem retryCountOf_later {e e' : ServerRun P} (h : Execution.Later e e')
    {id : UInt64} {m : Message} (hm : e.ledger.find id = some m) :
    e.ledger.retryCountOf id ≤ e'.ledger.retryCountOf id := by
  obtain ⟨m', hm', -, hle⟩ := (ServerRun.extends_later h).2 id m hm
  rw [Ledger.retryCountOf_eq hm, Ledger.retryCountOf_eq hm']
  exact hle

theorem outcome_of_resolves {e₃ e₄ e' : ServerRun P} {job : Job}
    {command : Command} {answer : command.Answer} {id : UInt64}
    (hresolves : Resolves id command)
    (hnext : Execution.Next e₃ (.execute .delivery job command answer) e₄)
    (hlater : Execution.Later e₄ e') (hretrying : retrying e' = none)
    (hanswered : ∀ x ∈ e'.history, Answered x.2) {m : Message}
    (hm : e₃.ledger.find id = some m) : Outcome e₃ e₄ e' id := by
  have hreply := hanswered _ (hlater.mem_history hnext.mem_history)
  have hcounted : Counted e₃ := counted e₃ fun x hx =>
    hanswered x ((hnext.later.trans hlater).mem_history hx)
  obtain ⟨m', hm', -, -⟩ := (ServerRun.extends_later hnext.later).2 id m hm
  rcases hresolves with rfl | ⟨now, rfl | rfl⟩
  · right
    right
    obtain ⟨hplus, -⟩ := hcounted.increment hnext hreply
    refine ⟨_, retryCount_of_find hm, ?_, ?_⟩
    · rw [← hplus]
      exact retryCount_of_find hm'
    · have hbefore := hcounted.exact id
      have hafter := (counted e' hanswered).exact id
      rw [hretrying] at hafter
      have hmono := retryCountOf_later hlater hm'
      simp only [reduceCtorEq, if_false] at hafter
      omega
  · exact .inl (hasStatus_of_mark hnext hreply hm)
  · right
    left
    obtain ⟨m₀, hm₀, hreached⟩ : Justified job e₃
        (.redis (.evalMsgStateScript .markFailed id now)) :=
      justified_of_next hnext
    have hbound := hcounted.bound id
    have hsame : e₄.ledger.retryCountOf id = e₃.ledger.retryCountOf id := by
      apply retryCountOf_next hnext
      intro t job' answer' hl
      cases hl
    refine ⟨hasStatus_of_mark hnext hreply hm, _, retryCount_of_find hm', ?_⟩
    rw [hsame]
    rw [Ledger.retryCountOf_eq hm₀] at hbound ⊢
    omega

/-- No overdue message is passed over.  A scan that finishes has read the clock
and then the timeout index.  Each message that had been delivered for longer than
the timeout at that point was either changed before the scan came to it, or was
still the same when the scan gave it up or retried it: it has become pending, or
it has failed after the last of its retries, or one more retry has been counted
and by the end of the scan the push of that retry has been sent. -/
theorem overdue_resolved {e e' : ServerRun P} {job : Job}
    (hfinish : Execution.Next e (.finish .delivery job) e')
    (hanswered : ∀ x ∈ e'.history, Answered x.2) :
    ∃ now reply, ∃ e₁ e₂ : ServerRun P,
      (serverThreads P).trace e₁ job = [⟨.nowMs, now⟩] ∧
      Execution.Next e₁ (.execute .delivery job
        (.redis (.zrangebyscoreTimeout (latestDue now))) reply) e₂ ∧
      Execution.Later e₂ e ∧
      ∀ id d, DeliveredSince e₁.state.store.db id d → 0 < d →
        d.toNat + kAckTimeoutMs.toNat ≤ now.toNat →
        (∃ e₃ : ServerRun P, Execution.Later e₂ e₃ ∧ Execution.Later e₃ e ∧
          ¬Resolved ((serverThreads P).trace e₃ job) id ∧
          ¬DeliveredSince e₃.state.store.db id d) ∨
        ∃ (e₃ e₄ : ServerRun P) (command : Command) (answer : command.Answer),
          Execution.Later e₂ e₃ ∧
          Execution.Next e₃ (.execute .delivery job command answer) e₄ ∧
          Execution.Later e₄ e ∧ DeliveredSince e₃.state.store.db id d ∧
          Outcome e₃ e₄ e' id := by
  have hscan : job.task = .scan := scan_of_finish hfinish
  have hearlier : ∀ x ∈ e.history, Answered x.2 := fun x hx =>
    hanswered x (hfinish.later.mem_history hx)
  obtain ⟨⟨now, reply, hcomplete⟩, hretrying⟩ := complete_of_finish hfinish
  obtain ⟨e₁, e₂, htrace, hread, hlater⟩ := exists_index_read hcomplete hscan
  refine ⟨now, reply, e₁, e₂, htrace, hread, hlater, ?_⟩
  intro id d hsince hpos hdue
  by_cases hstays : ∀ e₃, Execution.Later e₂ e₃ → Execution.Later e₃ e →
      ¬Resolved ((serverThreads P).trace e₃ job) id →
        DeliveredSince e₃.state.store.db id d
  · right
    have htrace₂ : (serverThreads P).trace e₂ job =
        [⟨.redis (.zrangebyscoreTimeout (latestDue now)), reply⟩,
          ⟨.nowMs, now⟩] := by
      rw [ThreadPool.trace_next_of_action hread rfl, htrace]
    have hbefore : ¬Resolved ((serverThreads P).trace e₂ job) id := by
      rw [htrace₂]
      rintro ⟨a, hmem, ha⟩
      simp only [List.mem_cons, List.not_mem_nil, or_false] at hmem
      rcases hmem with rfl | rfl
      · simp [Resolves] at ha
      · simp [Resolves] at ha
    obtain ⟨hid, hlists⟩ := lists_of_index_read hread
      (hearlier _ (hlater.mem_history hread.mem_history)) hsince hdue
    have hresolved := resolved_of_listed hcomplete hscan hlater hearlier htrace₂
      hid hlists hpos hdue hstays
    obtain ⟨e₃, e₄, l, h₃, hnext, h₄, hnot, a, hmem, ha⟩ :=
      hlater.exists_turn
        (P := fun e => Resolved ((serverThreads P).trace e job) id)
        hbefore hresolved
    rcases (ThreadPool.mem_trace_next hnext).mp hmem with haction | hpast
    · obtain ⟨t, rfl⟩ := ServerLabel.action_eq_some.mp haction
      obtain rfl : t = .delivery := thread_of_scan hnext hscan
      obtain ⟨command, answer⟩ := a
      have hsame := hstays e₃ h₃ (hnext.later.trans h₄) hnot
      obtain ⟨m₃, hm₃, -⟩ :=
        (deliveredSince_iff (ServerRun.represents e₃) id _).mp hsame
      exact ⟨e₃, e₄, command, answer, h₃, hnext, h₄, hsame,
        outcome_of_resolves ha hnext (h₄.trans hfinish.later) hretrying
          hanswered hm₃⟩
    · exact absurd ⟨a, hpast, ha⟩ hnot
  · left
    simp only [not_forall] at hstays
    obtain ⟨e₃, h₃, h₄, hnot, hchanged⟩ := hstays
    exact ⟨e₃, h₃, h₄, hnot, hchanged⟩

/-- User 1 writes a note to self. -/
def deliveredNote : List Choice :=
  [.connect 0, .receive 0 (loginAs 1)] ++ complete 0 20 ++
    [.receive 0 (chatFrom 1 1 7 (literal "hi") (literal "a"))] ++ complete 0 14

/-- A scan, much later. -/
def scanning : List Choice :=
  [.beginScan] ++ List.replicate 10 (.call .delivery 100000) ++
    [.finish .delivery]

def finishesScan : ServerLabel → Bool
  | .finish .delivery _ => true
  | _ => false

/-- What the scan reads: the clock, and the store while the message is as it was
delivered. -/
def readsOverdue (s : ServerState) : ServerLabel → Bool
  | .execute .delivery _ .nowMs now => now = 100000
  | .execute .delivery _ (.redis (.zrangebyscoreTimeout _)) _ =>
      DeliveredSince s.store.db 1 1000
  | .execute .delivery _ (.redis (.hmgetRecord _)) _ =>
      DeliveredSince s.store.db 1 1000
  | _ => true

instance (db : Db) (id : UInt64) (status : MessageStatus) :
    Decidable (HasStatus db id status) :=
  inferInstanceAs (Decidable (_ = _))

/-- The step makes no message Pending, Acked or Failed. -/
def keepsDelivered : ServerLabel → Bool
  | .execute _ _ (.redis (.evalMsgStateScript script _ _)) _ =>
      script = .markDelivered
  | .execute _ _ (.redis (.evalMarkAckedScript _ _ _)) _ => false
  | _ => true

theorem hasStatus_next_delivered {e e' : ServerRun P} {l : ServerLabel}
    {id : UInt64} (h : HasStatus e.state.store.db id .delivered)
    (hnext : Execution.Next e l e') (hkeeps : keepsDelivered l = true) :
    HasStatus e'.state.store.db id .delivered := by
  obtain ⟨m, hm, hstatus⟩ :=
    ((ServerRun.represents e).status_iff id .delivered).mp h
  obtain ⟨m', hm', -, -⟩ := (ServerRun.extends_later hnext.later).2 id m hm
  refine ((ServerRun.represents e').status_iff id .delivered).mpr ⟨m', hm', ?_⟩
  rcases ServerRun.ledger_next hnext with
    hledger | ⟨t, job, request, answer, rfl, hledger⟩
  · rw [hledger, hm, Option.some.injEq] at hm'
    rw [← hm']
    exact hstatus
  · rw [hledger] at hm'
    rcases Ledger.find_after_cases hm' with
      hold | ⟨_, _, _, _, _, -, -, hid, -⟩ | ⟨m₀, script, now, rfl, -, rfl⟩ |
      ⟨m₀, now, rfl, -, rfl⟩ | ⟨m₀, -, hold, rfl⟩
    · rw [hm, Option.some.injEq] at hold
      rw [← hold]
      exact hstatus
    · rw [hid, e.ledger.find_nextId] at hm
      cases hm
    · obtain rfl : script = .markDelivered := by simpa [keepsDelivered] using hkeeps
      rfl
    · cases hkeeps
    · rw [hm, Option.some.injEq] at hold
      rw [← hold]
      exact hstatus

def inScan : ServerLabel → Bool
  | .execute _ job _ _ => job.task = .scan
  | .finish _ job => job.task = .scan
  | _ => false

/-- The scan of the schedule.  It begins after `e₀` and ends with the step from `e₁`
to `e₂`, and the note is delivered all the time. -/
structure Scanned (e₀ e₁ e₂ e : ServerRun wirePlatform) (job : Job) : Prop where
  fresh : (serverThreads wirePlatform).trace e₀ job = []
  began : Execution.Later e₀ e₁
  finish : Execution.Next e₁ (.finish .delivery job) e₂
  ended : Execution.Later e₂ e
  answered : ∀ x ∈ e.history, Answered x.2
  reads : ∀ x ∈ e.history, readsOverdue x.1 x.2 = true
  stays : ∀ e', Execution.Later e₀ e' → Execution.Later e' e →
    HasStatus e'.state.store.db 1 .delivered

theorem exists_scanned : ∃ e₀ e₁ e₂ e job, Scanned e₀ e₁ e₂ e job := by
  obtain ⟨e₀, hstate₀, hhistory₀⟩ := exists_run wirePlatform deliveredNote
  obtain ⟨e, hlater, hstate, hhistory⟩ :=
    (serverDriver wirePlatform).exists_follow scanning e₀
  rw [hstate₀] at hstate hhistory
  have hbefore : ((serverDriver wirePlatform).trace {} deliveredNote).all
      (fun x => (readsOverdue x.1 x.2 && keepsDelivered x.2) && !inScan x.2) =
        true := by decide +kernel
  have hall : ((serverDriver wirePlatform).trace ((serverDriver wirePlatform).follow {}
      deliveredNote) scanning).all (fun x => readsOverdue x.1 x.2 &&
        keepsDelivered x.2) = true := by decide +kernel
  have hany : ((serverDriver wirePlatform).trace ((serverDriver wirePlatform).follow {}
      deliveredNote) scanning).any (fun x => finishesScan x.2) = true := by
    decide +kernel
  have hpast : ∀ x ∈ e₀.history, (readsOverdue x.1 x.2 = true ∧
      keepsDelivered x.2 = true) ∧ inScan x.2 = false := by
    intro x hx
    rw [hhistory₀, List.mem_reverse] at hx
    simpa using List.all_eq_true.mp hbefore x hx
  have hlabels : ∀ x ∈ e.history,
      readsOverdue x.1 x.2 = true ∧ keepsDelivered x.2 = true := by
    intro x hx
    rw [hhistory, List.mem_append, List.mem_reverse] at hx
    rcases hx with hnew | hold
    · simpa using List.all_eq_true.mp hall x hnew
    · exact (hpast x hold).1
  have hdelivered : HasStatus e₀.state.store.db 1 .delivered := by
    rw [hstate₀]
    decide +kernel
  obtain ⟨⟨s, l⟩, hfinish, hfinishes⟩ := List.any_eq_true.mp hany
  cases l with
  | finish t job =>
      cases t with
      | worker i => cases hfinishes
      | delivery =>
          have hin : (s, .finish .delivery job) ∈ e.history := by
            rw [hhistory, List.mem_append, List.mem_reverse]
            exact .inl hfinish
          obtain ⟨e₁, e₂, -, hnext, hrest⟩ := Execution.exists_next_of_mem hin
          have hscan : job.task = .scan := scan_of_finish hnext
          have hnot : ¬Execution.Later e₂ e₀ := by
            intro hearly
            have hquiet := (hpast _ (hearly.mem_history hnext.mem_history)).2
            simp [inScan, hscan] at hquiet
          refine ⟨e₀, e₁, e₂, e, job, ?_, ?_, hnext, hrest, ?_, ?_, ?_⟩
          · rw [List.eq_nil_iff_forall_not_mem]
            intro a ha
            obtain ⟨x, hx, haction⟩ := ThreadPool.mem_trace.mp ha
            obtain ⟨t, hl⟩ := ServerLabel.action_eq_some.mp haction
            have hquiet := (hpast x hx).2
            simp [hl, inScan, hscan] at hquiet
          · rcases hlater.total hrest with hafter | hearly
            · rcases hafter.eq_or_before hnext with rfl | hbegan
              · exact absurd (Execution.Later.refl _) hnot
              · exact hbegan
            · exact absurd hearly hnot
          · rintro ⟨s', l'⟩ hx t request' request answer rfl
            rw [hhistory, hhistory₀, List.mem_append, List.mem_reverse,
              List.mem_reverse] at hx
            rcases hx with hnew | hold
            · exact answer_ne_none_of_trace hnew
            · exact answer_ne_none_of_trace hold
          · exact fun x hx => (hlabels x hx).1
          · intro e' h₁
            apply h₁.preserves (P := fun e' => Execution.Later e' e →
              HasStatus e'.state.store.db 1 .delivered) fun _ => hdelivered
            intro e₃ e₄ l hstatus hnext hto
            exact hasStatus_next_delivered (hstatus (hnext.later.trans hto)) hnext
              (hlabels _ (hto.mem_history hnext.mem_history)).2
  | _ => cases hfinishes

/-- The index is read at the given time, and the note is as it was delivered. -/
theorem Scanned.index {e₀ e₁ e₂ e f₁ f₂ : ServerRun wirePlatform} {job : Job}
    {now : UInt64} {reply : Option Reply} (h : Scanned e₀ e₁ e₂ e job)
    (htrace : (serverThreads wirePlatform).trace f₁ job = [⟨.nowMs, now⟩])
    (hread : Execution.Next f₁ (.execute .delivery job
      (.redis (.zrangebyscoreTimeout (latestDue now))) reply) f₂)
    (hlater : Execution.Later f₂ e₁) :
    now = 100000 ∧ DeliveredSince f₁.state.store.db 1 1000 := by
  have hscan : job.task = .scan := scan_of_finish h.finish
  have hto : Execution.Later f₂ e :=
    hlater.trans (h.finish.later.trans h.ended)
  constructor
  · have hclock : [⟨.nowMs, now⟩] <:+
        (serverThreads wirePlatform).trace f₁ job := by
      rw [htrace]
    obtain ⟨f, f', l, hf, hf', haction, -⟩ :=
      ThreadPool.exists_next_of_trace hclock
    obtain ⟨t, rfl⟩ := ServerLabel.action_eq_some.mp haction
    obtain rfl : t = .delivery := thread_of_scan hf hscan
    simpa [readsOverdue] using h.reads _
      ((hf'.trans (hread.later.trans hto)).mem_history hf.mem_history)
  · simpa [readsOverdue] using h.reads _ (hto.mem_history hread.mem_history)

theorem overdue_resolved_scanning :
    ∃ (e₁ e₂ f : ServerRun wirePlatform) (job : Job),
      Execution.Next e₁ (.finish .delivery job) e₂ ∧ Execution.Later f e₁ ∧
      ((∃ e₃ : ServerRun wirePlatform, Execution.Later f e₃ ∧
          Execution.Later e₃ e₁ ∧
          ¬Resolved ((serverThreads wirePlatform).trace e₃ job) 1 ∧
          ¬DeliveredSince e₃.state.store.db 1 1000) ∨
        ∃ e₃ e₄, Execution.Later f e₃ ∧ Execution.Later e₄ e₁ ∧
          Outcome e₃ e₄ e₂ 1) := by
  obtain ⟨e₀, e₁, e₂, e, job, h⟩ := exists_scanned
  obtain ⟨now, reply, f₁, f₂, htrace, hread, hlater, houtcome⟩ :=
    overdue_resolved h.finish fun x hx => h.answered x (h.ended.mem_history hx)
  obtain ⟨rfl, hsince⟩ := h.index htrace hread hlater
  refine ⟨e₁, e₂, f₂, job, h.finish, hlater, ?_⟩
  rcases houtcome 1 1000 hsince (by decide) (by decide) with
    hchanged | ⟨e₃, e₄, command, answer, h₃, -, h₄, -, hout⟩
  · exact .inl hchanged
  · exact .inr ⟨e₃, e₄, h₃, h₄, hout⟩

/-! ## How often a message is found overdue -/

/-- The scan has read the message as overdue, by the clock it began with. -/
def FoundOverdue (τ : ServerTrace) (id : UInt64) : Prop :=
  ∃ now record, τ.getLast? = some ⟨.nowMs, now⟩ ∧ HasRead τ id record ∧
    overdue now record = true

theorem Complete.resolved_of_found {now : UInt64} {reply : Option Reply}
    {τ : ServerTrace} {id : UInt64} (h : Complete now reply τ)
    (hsound : Sound τ) (hfound : FoundOverdue τ id) : Resolved τ id := by
  obtain ⟨now', record, hlast, hread, hoverdue⟩ := hfound
  have hclock : now' = now := by
    rw [h.getLast?, Option.some.injEq] at hlast
    cases hlast
    rfl
  rw [← hsound.record id record hread]
  rw [hclock] at hoverdue
  exact h.resolved id record hread hoverdue

/-- The job that a step counts a retry of the message for. -/
def countedBy (id : UInt64) : ServerLabel → Option Job
  | .execute _ job (.redis (.evalIncrementRetryScript id')) _ =>
      if id' = id then some job else none
  | _ => none

theorem countedBy_eq_some {id : UInt64} {l : ServerLabel} {job : Job} :
    countedBy id l = some job ↔ ∃ t answer,
      l = .execute t job (.redis (.evalIncrementRetryScript id)) answer := by
  constructor
  · intro h
    cases l with
    | execute t job' command answer =>
        cases command with
        | redis request =>
            cases request with
            | evalIncrementRetryScript id' =>
                simp only [countedBy, Option.ite_none_right_eq_some,
                  Option.some.injEq] at h
                obtain ⟨rfl, rfl⟩ := h
                exact ⟨t, answer, rfl⟩
            | _ => cases h
        | _ => cases h
    | _ => cases h
  · rintro ⟨t, answer, rfl⟩
    exact if_pos rfl

/-- The retry count is the number of times that a retry was counted. -/
theorem retryCountOf_eq_length (e : ServerRun P)
    (hanswered : ∀ x ∈ e.history, Answered x.2) (id : UInt64) :
    e.ledger.retryCountOf id = (e.log (countedBy id)).length := by
  revert hanswered
  apply Execution.induct (P := fun e : ServerRun P =>
    (∀ x ∈ e.history, Answered x.2) →
      e.ledger.retryCountOf id = (e.log (countedBy id)).length)
  · intro e hnil hinit _
    have hs : e.state = {} := hinit
    rw [Execution.log_init hnil, ServerRun.ledger, hs, StoreDb.ledger_empty]
    rfl
  · intro e e' l ih hnext hanswered
    have hearlier : ∀ x ∈ e.history, Answered x.2 := fun x hx =>
      hanswered x (hnext.later.mem_history hx)
    rw [Execution.log_next hnext, List.length_append, ← ih hearlier]
    cases hl : countedBy id l with
    | none =>
        rw [Option.toList_none, List.length_nil, Nat.add_zero]
        apply retryCountOf_next hnext
        intro t job answer heq
        rw [countedBy_eq_some.mpr ⟨t, answer, heq⟩] at hl
        cases hl
    | some job =>
        obtain ⟨t, answer, rfl⟩ := countedBy_eq_some.mp hl
        have hstep : ServerStep P e.state (.execute t job
          (.redis (.evalIncrementRetryScript id)) answer) e'.state := hnext.1
        obtain ⟨next, -, hrunning, -, -⟩ := hstep.execute_inv
        cases htask : job.task with
        | event event => exact absurd hrunning (increment_not_of_event htask)
        | scan =>
            obtain rfl : t = .delivery := thread_of_scan hnext htask
            exact ((counted e hearlier).increment hnext
              (hanswered _ hnext.mem_history)).1

/-- A scan that began and ended while the message was delivered, and found it
overdue, has counted a retry of it. -/
theorem counted_of_found {e₀ e₁ e₂ : ServerRun P} {job : Job} {id : UInt64}
    (hlater : Execution.Later e₀ e₁)
    (hfinish : Execution.Next e₁ (.finish .delivery job) e₂)
    (hanswered : ∀ x ∈ e₁.history, Answered x.2)
    (hfresh : (serverThreads P).trace e₀ job = [])
    (hfound : FoundOverdue ((serverThreads P).trace e₁ job) id)
    (hstays : ∀ e, Execution.Later e₀ e → Execution.Later e e₁ →
      HasStatus e.state.store.db id .delivered) :
    job ∈ e₁.log (countedBy id) := by
  have hstep : ServerStep P e₁.state (.finish .delivery job) e₂.state :=
    hfinish.1
  have hrunning := hstep.finish_inv.1
  obtain ⟨⟨now, reply, hcomplete⟩, -⟩ := complete_of_finish hfinish
  have hsound := (counted e₁ hanswered).sound job _ hrunning
  obtain ⟨⟨command, answer⟩, hmem, ha⟩ := hcomplete.resolved_of_found hsound hfound
  obtain ⟨f, f', l, hf, hnext, hf', haction⟩ :=
    ThreadPool.exists_next_of_mem_trace hlater hmem (by simp [hfresh])
  obtain ⟨t, rfl⟩ := ServerLabel.action_eq_some.mp haction
  obtain ⟨m, hm, -⟩ := ((ServerRun.represents f).status_iff id .delivered).mp
    (hstays f hf (hnext.later.trans hf'))
  have hreply := hanswered _ (hf'.mem_history hnext.mem_history)
  have hafter := hstays f' (hf.trans hnext.later) hf'
  rcases ha with rfl | ⟨at', rfl | rfl⟩
  · exact Execution.mem_log.mpr ⟨_, hf'.mem_history hnext.mem_history,
      countedBy_eq_some.mpr ⟨t, answer, rfl⟩⟩
  · have hmark : HasStatus f'.state.store.db id .pending :=
      hasStatus_of_mark hnext hreply hm
    cases hmark.unique hafter
  · have hmark : HasStatus f'.state.store.db id .failed :=
      hasStatus_of_mark hnext hreply hm
    cases hmark.unique hafter

/-- A message does not stay delivered and unacknowledged for long.  While its
status is Delivered, each scan that finds it overdue counts a retry of it, so
there are no more such scans than retries are left. -/
theorem overdue_at_most {e₀ e : ServerRun P} {id : UInt64}
    (hlater : Execution.Later e₀ e) (hanswered : ∀ x ∈ e.history, Answered x.2)
    (hstays : ∀ e₁, Execution.Later e₀ e₁ → Execution.Later e₁ e →
      HasStatus e₁.state.store.db id .delivered)
    {scans : List Job} (hnodup : scans.Nodup)
    (hscans : ∀ job ∈ scans, (serverThreads P).trace e₀ job = [] ∧
      ∃ e₁ e₂, Execution.Later e₀ e₁ ∧
        Execution.Next e₁ (.finish .delivery job) e₂ ∧ Execution.Later e₂ e ∧
        FoundOverdue ((serverThreads P).trace e₁ job) id) :
    ∃ n₀ n : ℕ, RetryCount e₀.state.store.db id n₀ ∧
      RetryCount e.state.store.db id n ∧ n₀ + scans.length ≤ n ∧
      n ≤ kMaxDeliveryRetryCount := by
  obtain ⟨m₀, hm₀, -⟩ := ((ServerRun.represents e₀).status_iff id .delivered).mp
    (hstays e₀ (Execution.Later.refl e₀) hlater)
  obtain ⟨m, hm, -⟩ := ((ServerRun.represents e).status_iff id .delivered).mp
    (hstays e hlater (Execution.Later.refl e))
  have hearlier : ∀ x ∈ e₀.history, Answered x.2 := fun x hx =>
    hanswered x (hlater.mem_history hx)
  refine ⟨_, _, retryCount_of_find hm₀, retryCount_of_find hm, ?_,
    (counted e hanswered).bound id⟩
  rw [retryCountOf_eq_length e₀ hearlier, retryCountOf_eq_length e hanswered]
  obtain ⟨since, hsince⟩ := hlater.log_extends (countedBy id)
  have hsubset : scans ⊆ since := by
    intro job hjob
    obtain ⟨hfresh, e₁, e₂, h₁, hfinish, h₂, hfound⟩ := hscans job hjob
    have hrest : Execution.Later e₁ e := hfinish.later.trans h₂
    have hcounted : job ∈ e₁.log (countedBy id) :=
      counted_of_found h₁ hfinish
        (fun x hx => hanswered x (hrest.mem_history hx)) hfresh hfound
        fun e₃ h₃ h₄ => hstays e₃ h₃ (h₄.trans hrest)
    have hmem := (hrest.log_extends (countedBy id)).subset hcounted
    rw [← hsince, List.mem_append] at hmem
    rcases hmem with hbefore | hafter
    · obtain ⟨x, hx, hl⟩ := Execution.mem_log.mp hbefore
      obtain ⟨t, answer, heq⟩ := countedBy_eq_some.mp hl
      have hacted : ⟨.redis (.evalIncrementRetryScript id), answer⟩ ∈
          (serverThreads P).trace e₀ job :=
        ThreadPool.mem_trace.mpr ⟨x, hx,
          ServerLabel.action_eq_some.mpr ⟨t, heq⟩⟩
      rw [hfresh] at hacted
      cases hacted
    · exact hafter
  rw [← hsince, List.length_append]
  have hlength := (List.subperm_of_subset hnodup hsubset).length_le
  omega

theorem Scanned.found {e₀ e₁ e₂ e : ServerRun wirePlatform} {job : Job}
    (h : Scanned e₀ e₁ e₂ e job) :
    FoundOverdue ((serverThreads wirePlatform).trace e₁ job) 1 := by
  have hscan : job.task = .scan := scan_of_finish h.finish
  have hto : Execution.Later e₁ e := h.finish.later.trans h.ended
  have hanswered : ∀ x ∈ e₁.history, Answered x.2 := fun x hx =>
    h.answered x (hto.mem_history hx)
  obtain ⟨⟨now, reply, hcomplete⟩, -⟩ := complete_of_finish h.finish
  obtain ⟨f₁, f₂, htrace, hread, hlater⟩ := exists_index_read hcomplete hscan
  obtain ⟨rfl, hsince⟩ := h.index htrace hread hlater
  obtain ⟨hid, hlists⟩ := lists_of_index_read hread
    (hanswered _ (hlater.mem_history hread.mem_history)) hsince (by decide)
  have hstart : (serverThreads wirePlatform).trace f₂ job =
      [⟨.redis (.zrangebyscoreTimeout (latestDue 100000)), reply⟩,
        ⟨.nowMs, 100000⟩] := by
    rw [ThreadPool.trace_next_of_action hread rfl, htrace]
  obtain ⟨f, f', answer, hf, hfetch, hf', hfound⟩ := exists_record_read
    hcomplete hscan hlater hanswered hstart hid hlists
    (by decide : (0 : UInt64) < 1000) (by decide)
  have hsame : DeliveredSince f.state.store.db 1 1000 := by
    simpa [readsOverdue] using h.reads _
      (hto.mem_history (hf'.mem_history hfetch.mem_history))
  obtain ⟨record, hrecord, -, hoverdue⟩ := hfound hsame
  exact ⟨100000, record, hcomplete.getLast?, hrecord, hoverdue⟩

theorem overdue_at_most_scanning :
    ∃ (e₀ e : ServerRun wirePlatform) (n₀ n : ℕ),
      RetryCount e₀.state.store.db 1 n₀ ∧ RetryCount e.state.store.db 1 n ∧
      n₀ + 1 ≤ n ∧ n ≤ kMaxDeliveryRetryCount := by
  obtain ⟨e₀, e₁, e₂, e, job, h⟩ := exists_scanned
  obtain ⟨n₀, n, hcounts⟩ := overdue_at_most
    (h.began.trans (h.finish.later.trans h.ended)) h.answered h.stays
    (List.nodup_singleton job) (by
      intro job' hjob'
      rw [List.mem_singleton] at hjob'
      subst hjob'
      exact ⟨h.fresh, e₁, e₂, h.began, h.finish, h.ended, h.found⟩)
  exact ⟨e₀, e, n₀, n, hcounts⟩

end ReliableDelivery
