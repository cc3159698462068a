import ReliableDelivery.Client.Rules

/-!
# The bookkeeping of the client process

Numbers are drawn once, so a registered request is determined by its sequence
number, and so is the call that made it by the number in its client id.  The
map of pending requests holds registered requests only, with the number of
scans that found them due as their retry count.  Together these bound how often
a request is written to the socket.
-/

namespace ReliableDelivery

open Decimal TransitionSystem Program Client

variable {P : Platform} {S : Sessions}

/-! ## Steps -/

section Steps

variable {s s' : ProcessState} {l : ProcessLabel}

@[simp] theorem ProcessState.pendingAcks_setRunning (s : ProcessState)
    (t : ClientThread) (code : Option (ClientJob × ClientProgram Unit))
    (client : Conn) :
    (s.setRunning t code).pendingAcks client = s.pendingAcks client :=
  rfl

theorem ProcessState.pendingAcks_modify (s : ProcessState)
    (client client' : Conn) (change : ClientState → ClientState) :
    (s.modify client change).pendingAcks client' =
      if client' = client then (change (s.clients client)).pendingAcks
      else s.pendingAcks client' := by
  simp only [ProcessState.pendingAcks, ProcessState.modify,
    Function.update_apply]
  split <;> rfl

/-- A change of a client that keeps its pending requests keeps all of them. -/
theorem ProcessState.pendingAcks_modify_of_eq (s : ProcessState)
    (client client' : Conn) {change : ClientState → ClientState}
    (hkeeps : ∀ c, (change c).pendingAcks = c.pendingAcks) :
    (s.modify client change).pendingAcks client' = s.pendingAcks client' := by
  rw [ProcessState.pendingAcks_modify]
  split
  · next heq =>
      rw [heq, hkeeps]
      rfl
  · rfl

@[simp] theorem ProcessState.pendingAcks_taken (s : ProcessState)
    (job : ClientJob) (client : Conn) :
    (s.taken job).pendingAcks client = s.pendingAcks client := by
  unfold ProcessState.taken
  split
  · exact ProcessState.pendingAcks_modify_of_eq _ _ _ (by intro c; rfl)
  · exact ProcessState.pendingAcks_modify_of_eq _ _ _ (by intro c; rfl)
  · rfl

/-- What a step makes of the pending requests of a client. -/
def ProcessLabel.pendingAcks (l : ProcessLabel) (client : Conn)
    (acks : PendingAcks) : PendingAcks :=
  match l with
  | .execute _ _ (.register client' seq envelope) now =>
      if client = client' then
        acks.insert seq { envelope, lastSendMs := now, retryCount := 0 }
      else acks
  | .execute _ _ (.erase client' seq) _ =>
      if client = client' then acks.erase seq else acks
  | .execute _ _ (.scan client' now) _ =>
      if client = client' then (PendingAcks.scan now acks).1 else acks
  | _ => acks

theorem ProcessStep.pendingAcks (h : ProcessStep P S s l s') (client : Conn) :
    s'.pendingAcks client = l.pendingAcks client (s.pendingAcks client) := by
  have hsame : ∀ client' change,
      (∀ c : ClientState, (change c).pendingAcks = c.pendingAcks) →
      (s.modify client' change).pendingAcks client = s.pendingAcks client := by
    intro client' change hchange
    rw [ProcessState.pendingAcks_modify]
    split
    · next heq =>
        rw [heq]
        exact hchange _
    · rfl
  have hmap : ∀ client' (change : PendingAcks → PendingAcks),
      (s.modify client' fun c =>
        { c with pendingAcks := change c.pendingAcks }).pendingAcks client =
      if client = client' then change (s.pendingAcks client)
      else s.pendingAcks client := by
    intro client' change
    rw [ProcessState.pendingAcks_modify]
    split
    · next heq =>
        rw [heq]
        rfl
    · rfl
  cases h with
  | begin t job hsession hnumber hidle hready =>
      simp [ProcessLabel.pendingAcks]
  | finish t job hrunning => rfl
  | execute t job command next answer s'' hrunning heffect =>
      rw [ProcessState.pendingAcks_setRunning]
      cases heffect with
      | register client' seq envelope now => exact hmap _ _
      | erase client' seq => exact hmap client' (AList.erase seq)
      | scan client' now messages hperm =>
          exact hmap client' fun acks => (PendingAcks.scan now acks).1
      | failPendingLogin client' =>
          refine hsame _ _ fun c => ?_
          split <;> rfl
      | startRetry client' =>
          refine hsame _ _ fun c => ?_
          split <;> rfl
      | setStop client' => exact hsame _ _ fun _ => rfl
      | handleLogin client' ok => exact hsame _ _ fun _ => rfl
      | pushMessage client' envelope => exact hsame _ _ fun _ => rfl
      | startReceiver client' => exact hsame _ _ fun _ => rfl
      | _ => rfl

/-- What a scan gives is what it found due. -/
theorem ProcessStep.scan_perm {t : ClientThread} {job : ClientJob}
    {client : Conn} {now : UInt64} {messages : List Envelope}
    (h : ProcessStep P S s (.execute t job (.scan client now) messages) s') :
    messages.Perm (PendingAcks.scan now (s.pendingAcks client)).2 := by
  obtain ⟨next, s'', -, heffect, -⟩ := h.execute_inv
  cases heffect with
  | scan _ _ _ hperm => exact hperm

/-- A counter stays as it is, or gives its value and moves on. -/
theorem ProcessStep.counters (h : ProcessStep P S s l s') (counter : Counter) :
    (s'.counters counter = s.counters counter ∧
      ∀ t job n, l ≠ .execute t job (.fetchAdd counter) n) ∨
      ∃ t job, s.counters counter < 2 ^ 64 ∧
        l = .execute t job (.fetchAdd counter)
          (UInt64.ofNat (s.counters counter)) ∧
        s'.counters counter = s.counters counter + 1 := by
  cases h with
  | begin t job hsession hnumber hidle hready =>
      refine .inl ⟨?_, by intro _ _ _ hl; cases hl⟩
      simp only [ProcessState.setRunning, ProcessState.taken]
      split <;> rfl
  | finish t job hrunning =>
      exact .inl ⟨rfl, by intro _ _ _ hl; cases hl⟩
  | execute t job command next answer s'' hrunning heffect =>
      cases heffect with
      | fetchAdd counter' hroom =>
          by_cases heq : counter' = counter
          · subst heq
            refine .inr ⟨t, job, hroom, rfl, ?_⟩
            simp only [ProcessState.setRunning, Function.update_self]
          · refine .inl ⟨?_, ?_⟩
            · simp only [ProcessState.setRunning]
              exact Function.update_of_ne (Ne.symm heq) _ _
            · intro _ _ _ hl
              cases hl
              exact heq rfl
      | _ => exact .inl ⟨rfl, by intro _ _ _ hl; cases hl⟩

end Steps

namespace ProcessRun

/-! ## Numbers -/

/-- A number that was drawn is below the counter, and belongs to one job. -/
theorem drawn (e : ProcessRun P S) (counter : Counter) :
    (∀ job n, ⟨.fetchAdd counter, n⟩ ∈ e.trace job →
      n.toNat < e.state.counters counter) ∧
    ∀ job job' n, ⟨.fetchAdd counter, n⟩ ∈ e.trace job →
      ⟨.fetchAdd counter, n⟩ ∈ e.trace job' → job = job' := by
  apply Execution.induct (P := fun e : ProcessRun P S =>
    (∀ job n, ⟨.fetchAdd counter, n⟩ ∈ trace e job →
      n.toNat < e.state.counters counter) ∧
    ∀ job job' n, ⟨.fetchAdd counter, n⟩ ∈ trace e job →
      ⟨.fetchAdd counter, n⟩ ∈ trace e job' → job = job')
  · intro e hnil _
    have hempty : ∀ job, trace e job = [] := by
      intro job
      rw [trace, ThreadPool.trace, hnil]
      rfl
    simp [hempty]
  · rintro e e' l ⟨hbelow, hunique⟩ hnext
    rcases ProcessStep.counters hnext.1 counter with
      ⟨hsame, hother⟩ | ⟨t, drawer, hroom, rfl, hmoves⟩
    · have hold : ∀ job n, ⟨.fetchAdd counter, n⟩ ∈ trace e' job →
          ⟨.fetchAdd counter, n⟩ ∈ trace e job := by
        intro job n hmem
        rcases (mem_trace_next hnext).mp hmem with ⟨t, hl⟩ | hmem
        · exact absurd hl (hother t job n)
        · exact hmem
      rw [hsame]
      exact ⟨fun job n hmem => hbelow job n (hold job n hmem),
        fun job job' n hmem hmem' =>
          hunique job job' n (hold job n hmem) (hold job' n hmem')⟩
    · have hvalue : (UInt64.ofNat (e.state.counters counter)).toNat =
          e.state.counters counter := by
        rw [UInt64.toNat_ofNat']
        exact Nat.mod_eq_of_lt hroom
      have hcases : ∀ job n, ⟨.fetchAdd counter, n⟩ ∈ trace e' job →
          ⟨.fetchAdd counter, n⟩ ∈ trace e job ∨
            job = drawer ∧ n = UInt64.ofNat (e.state.counters counter) := by
        intro job n hmem
        rcases (mem_trace_next hnext).mp hmem with ⟨t', hl⟩ | hmem
        · cases hl
          exact .inr ⟨rfl, rfl⟩
        · exact .inl hmem
      refine ⟨?_, ?_⟩
      · intro job n hmem
        rw [hmoves]
        rcases hcases job n hmem with hold | ⟨-, rfl⟩
        · have hlt := hbelow job n hold
          omega
        · omega
      · intro job job' n hmem hmem'
        rcases hcases job n hmem with hold | ⟨rfl, rfl⟩
        · rcases hcases job' n hmem' with hold' | ⟨rfl, rfl⟩
          · exact hunique job job' n hold hold'
          · have hlt := hbelow job _ hold
            omega
        · rcases hcases job' _ hmem' with hold' | ⟨rfl, -⟩
          · have hlt := hbelow job' _ hold'
            omega
          · rfl

/-! ## Registered requests -/

/-- In the run so far, the job registered the request with its client. -/
def Registered (e : ProcessRun P S) (job : ClientJob) (client : Conn)
    (seq : UInt64) (envelope : Envelope) : Prop :=
  Registers (e.trace job) client seq envelope

theorem Registered.mono {e e' : ProcessRun P S} {job : ClientJob}
    {client : Conn} {seq : UInt64} {envelope : Envelope}
    (h : Registered e job client seq envelope)
    (hlater : Execution.Later e e') :
    Registered e' job client seq envelope := by
  obtain ⟨now, hmem⟩ := h
  exact ⟨now, (ThreadPool.trace_suffix hlater job).mem hmem⟩

/-- A registered request comes from a call with the numbers it has drawn. -/
theorem Registered.call {e : ProcessRun P S} {job : ClientJob} {client : Conn}
    {seq : UInt64} {envelope : Envelope}
    (h : Registered e job client seq envelope) :
    client = job.client ∧ ⟨.fetchAdd .nextSeq, seq⟩ ∈ e.trace job ∧
      ∃ toUid content msgNo now stamp, job.task = .send toUid content ∧
        ⟨.fetchAdd .nextClientMsgNo, msgNo⟩ ∈ e.trace job ∧
        envelope = chatRequest job.uid toUid content seq msgNo now stamp := by
  obtain ⟨at', hmem⟩ := h
  obtain ⟨τ, hsuffix, -, hclient, ⟨toUid, content, msgNo, now, stamp, htask,
    hseq, hmsgNo, henvelope⟩, -⟩ := (e.lawful job).rule_of_mem hmem
  exact ⟨hclient, hsuffix.mem hseq, toUid, content, msgNo, now, stamp, htask,
    hsuffix.mem hmsgNo, henvelope⟩

/-- A job registers one request. -/
theorem Registered.eq {e : ProcessRun P S} {job : ClientJob}
    {client client' : Conn} {seq seq' : UInt64} {envelope envelope' : Envelope}
    (h : Registered e job client seq envelope)
    (h' : Registered e job client' seq' envelope') :
    client = client' ∧ seq = seq' ∧ envelope = envelope' := by
  obtain ⟨now, hmem⟩ := h
  obtain ⟨now', hmem'⟩ := h'
  have heq := (e.lawful job).eq_of_mem
    (Q := fun a => ∃ client seq envelope now,
      a = ⟨.register client seq envelope, now⟩) ?_ hmem hmem'
    ⟨_, _, _, _, rfl⟩ ⟨_, _, _, _, rfl⟩
  · cases heq
    exact ⟨rfl, rfl, rfl⟩
  · rintro τ _ hrule ⟨client, seq, envelope, now, rfl⟩ b hb
      ⟨client', seq', envelope', now', rfl⟩
    obtain ⟨-, -, hnone⟩ := hrule
    exact hnone client' seq' envelope' ⟨now', hb⟩

/-- The sequence number determines the request and the call that made it. -/
theorem Registered.of_seq {e : ProcessRun P S} {job job' : ClientJob}
    {client client' : Conn} {seq : UInt64} {envelope envelope' : Envelope}
    (h : Registered e job client seq envelope)
    (h' : Registered e job' client' seq envelope') :
    job = job' ∧ client = client' ∧ envelope = envelope' := by
  obtain ⟨-, hseq, -⟩ := h.call
  obtain ⟨-, hseq', -⟩ := h'.call
  have heq : job = job' := (e.drawn .nextSeq).2 job job' seq hseq hseq'
  subst heq
  obtain ⟨hclient, -, henvelope⟩ := h.eq h'
  exact ⟨rfl, hclient, henvelope⟩

theorem makeClientMsgId_inj {uid uid' now now' msgNo msgNo' : UInt64}
    (h : makeClientMsgId uid now msgNo = makeClientMsgId uid' now' msgNo') :
    msgNo = msgNo' := by
  simp only [makeClientMsgId, toText, List.append_assoc] at h
  have hdash : isDigit 45 = false := by decide
  have hliteral : literal "-" = [45] := by decide
  rw [hliteral] at h
  simp only [List.singleton_append] at h
  rw [render_append_cons_inj hdash, render_append_cons_inj hdash,
    render_inj] at h
  exact UInt64.toNat_inj.mp h.2.2

/-- So does the client id. -/
theorem Registered.of_clientMsgId {e : ProcessRun P S} {job job' : ClientJob}
    {client client' : Conn} {seq seq' : UInt64} {envelope envelope' : Envelope}
    {request request' : ChatRequest}
    (h : Registered e job client seq envelope)
    (h' : Registered e job' client' seq' envelope')
    (hrequest : envelope.chatReq? = some request)
    (hrequest' : envelope'.chatReq? = some request')
    (hid : request.clientMsgId = request'.clientMsgId) :
    job = job' ∧ client = client' ∧ envelope = envelope' := by
  obtain ⟨-, -, toUid, content, msgNo, now, stamp, -, hmsgNo, rfl⟩ := h.call
  obtain ⟨-, -, toUid', content', msgNo', now', stamp', -, hmsgNo', rfl⟩ :=
    h'.call
  cases hrequest
  cases hrequest'
  rw [makeClientMsgId_inj hid] at hmsgNo
  have heq : job = job' :=
    (e.drawn .nextClientMsgNo).2 job job' msgNo' hmsgNo hmsgNo'
  subst heq
  obtain ⟨hclient, -, henvelope⟩ := h.eq h'
  exact ⟨rfl, hclient, henvelope⟩

/-- A registered request is found under its own number. -/
theorem Registered.isRequest {e : ProcessRun P S} {job : ClientJob}
    {client : Conn} {seq seq' : UInt64} {envelope : Envelope}
    (h : Registered e job client seq envelope) :
    envelope.isRequest seq' = true ↔ seq = seq' := by
  obtain ⟨-, -, toUid, content, msgNo, now, stamp, -, -, rfl⟩ := h.call
  simp only [chatRequest, Envelope.isRequest, decide_true, Bool.true_and]
  exact decide_eq_true_iff

/-! ## Pending requests -/

/-- How often scans have found the request due. -/
def scanned (e : ProcessRun P S) (seq : UInt64) : ℕ :=
  (clientThreads P S).total e (scans seq)

/-- The books of the process. -/
structure Booked (e : ProcessRun P S) : Prop where
  registered : ∀ client seq pending,
    (e.state.pendingAcks client).lookup seq = some pending →
    ∃ job, Registered e job client seq pending.envelope
  counted : ∀ client seq pending,
    (e.state.pendingAcks client).lookup seq = some pending →
    pending.retryCount = e.scanned seq
  bounded : ∀ seq, e.scanned seq ≤ kMaxRetryCount
  unscanned : ∀ seq, (∀ job client envelope,
    ¬Registered e job client seq envelope) → e.scanned seq = 0
  given : ∀ job client now messages,
    ⟨.scan client now, messages⟩ ∈ e.trace job → ∀ envelope ∈ messages,
      ∃ job', Registered e job' client envelope.seq envelope

section Booked

variable {e e' : ProcessRun P S} {l : ProcessLabel}

/-- A step that is not a scan counts for nothing. -/
theorem scanned_next (hnext : Execution.Next e l e') (seq : UInt64)
    (hother : ∀ t job client now messages,
      l ≠ .execute t job (.scan client now) messages) :
    scanned e' seq = scanned e seq := by
  cases haction : l.action with
  | none => exact ThreadPool.total_next_of_none hnext haction
  | some x =>
      obtain ⟨job, command, answer⟩ := x
      obtain ⟨t, hl⟩ := ProcessLabel.action_eq_some.mp haction
      have hzero : scans seq ⟨command, answer⟩ = 0 := by
        cases command with
        | scan client now => exact absurd hl (hother t job client now answer)
        | _ => rfl
      have htotal : (clientThreads P S).total e' (scans seq) =
          scans seq ⟨command, answer⟩ +
            (clientThreads P S).total e (scans seq) :=
        ThreadPool.total_next_of_action hnext haction
      rw [hzero, Nat.zero_add] at htotal
      exact htotal

/-- A scan counts what it finds. -/
theorem scanned_next_scan {t : ClientThread} {job : ClientJob} {client : Conn}
    {now : UInt64} {messages : List Envelope}
    (hnext : Execution.Next e (.execute t job (.scan client now) messages) e')
    (seq : UInt64) :
    scanned e' seq =
      (PendingAcks.scan now (e.state.pendingAcks client)).2.countP
        (Envelope.isRequest seq) + scanned e seq := by
  have hperm := ProcessStep.scan_perm hnext.1
  rw [← hperm.countP_eq]
  have haction : (clientThreads P S).action
      (.execute t job (.scan client now) messages) =
        some (job, ⟨.scan client now, messages⟩) := rfl
  exact ThreadPool.total_next_of_action hnext haction

/-- A step that does not scan keeps the books, if what is pending afterwards was
pending before. -/
theorem Booked.next_other (h : Booked e) (hnext : Execution.Next e l e')
    (hother : ∀ t job client now messages,
      l ≠ .execute t job (.scan client now) messages)
    (hpending : ∀ client seq pending,
      (e'.state.pendingAcks client).lookup seq = some pending →
      (e.state.pendingAcks client).lookup seq = some pending) :
    Booked e' where
  registered client seq pending hlookup := by
    obtain ⟨job, hjob⟩ :=
      h.registered client seq pending (hpending client seq pending hlookup)
    exact ⟨job, hjob.mono hnext.later⟩
  counted client seq pending hlookup := by
    rw [scanned_next hnext seq hother]
    exact h.counted client seq pending (hpending client seq pending hlookup)
  bounded seq := by
    rw [scanned_next hnext seq hother]
    exact h.bounded seq
  unscanned seq hnone := by
    rw [scanned_next hnext seq hother]
    apply h.unscanned seq
    intro job client envelope hregistered
    exact hnone job client envelope (hregistered.mono hnext.later)
  given job client now messages hmem envelope hmessages := by
    rcases (mem_trace_next hnext).mp hmem with ⟨t, hl⟩ | hmem
    · exact absurd hl (hother t job client now messages)
    · obtain ⟨job', hjob'⟩ :=
        h.given job client now messages hmem envelope hmessages
      exact ⟨job', hjob'.mono hnext.later⟩

/-- A request is registered under a number that is not in use. -/
theorem Booked.next_register (h : Booked e) {t : ClientThread}
    {job : ClientJob} {client : Conn} {seq now : UInt64} {envelope : Envelope}
    (hnext : Execution.Next e
      (.execute t job (.register client seq envelope) now) e') :
    Booked e' := by
  have hother : ∀ t' job' client' now' messages,
      (.execute t job (.register client seq envelope) now : ProcessLabel) ≠
        .execute t' job' (.scan client' now') messages := by
    intro _ _ _ _ _ hl
    cases hl
  have hnew : Registered e' job client seq envelope :=
    ⟨now, (mem_trace_next hnext).mpr (.inl ⟨t, rfl⟩)⟩
  have hfree : ∀ job' client' envelope',
      ¬Registered e job' client' seq envelope' := by
    intro job' client' envelope' hold
    obtain ⟨rfl, -, -⟩ := hnew.of_seq (hold.mono hnext.later)
    obtain ⟨⟨-, -, hnone⟩, -⟩ :
        Lawful (ClientRule job) (⟨.register client seq envelope, now⟩ ::
          trace e job) := by
      have hlawful := lawful e' job
      rw [trace, ThreadPool.trace_next_of_action hnext rfl] at hlawful
      exact hlawful
    exact hnone client' seq envelope' hold
  have hcases : ∀ client' seq' pending,
      (e'.state.pendingAcks client').lookup seq' = some pending →
      (e.state.pendingAcks client').lookup seq' = some pending ∨
        client' = client ∧ seq' = seq ∧
          pending = { envelope, lastSendMs := now, retryCount := 0 } := by
    intro client' seq' pending hlookup
    rw [ProcessStep.pendingAcks hnext.1] at hlookup
    simp only [ProcessLabel.pendingAcks] at hlookup
    split at hlookup
    · next hclient =>
        by_cases hseq : seq' = seq
        · rw [hseq, AList.lookup_insert, Option.some.injEq] at hlookup
          exact .inr ⟨hclient, hseq, hlookup.symm⟩
        · rw [AList.lookup_insert_ne hseq] at hlookup
          exact .inl hlookup
    · exact .inl hlookup
  refine ⟨?_, ?_, ?_, ?_, ?_⟩
  · intro client' seq' pending hlookup
    rcases hcases client' seq' pending hlookup with hold | ⟨rfl, rfl, rfl⟩
    · obtain ⟨job', hjob'⟩ := h.registered client' seq' pending hold
      exact ⟨job', hjob'.mono hnext.later⟩
    · exact ⟨job, hnew⟩
  · intro client' seq' pending hlookup
    rw [scanned_next hnext seq' hother]
    rcases hcases client' seq' pending hlookup with hold | ⟨rfl, rfl, rfl⟩
    · exact h.counted client' seq' pending hold
    · exact (h.unscanned seq' hfree).symm
  · intro seq'
    rw [scanned_next hnext seq' hother]
    exact h.bounded seq'
  · intro seq' hnone
    rw [scanned_next hnext seq' hother]
    apply h.unscanned seq'
    intro job' client' envelope' hregistered
    exact hnone job' client' envelope' (hregistered.mono hnext.later)
  · intro job' client' now' messages hmem envelope' hmessages
    rcases (mem_trace_next hnext).mp hmem with ⟨t', hl⟩ | hmem
    · exact absurd hl (hother t' job' client' now' messages)
    · obtain ⟨job'', hjob''⟩ :=
        h.given job' client' now' messages hmem envelope' hmessages
      exact ⟨job'', hjob''.mono hnext.later⟩

/-- The entries of the map are requests under their own numbers. -/
theorem Booked.key (h : Booked e) {client : Conn} {seq seq' : UInt64}
    {pending : PendingAck}
    (hlookup : (e.state.pendingAcks client).lookup seq' = some pending)
    (hrequest : pending.envelope.isRequest seq = true) : seq' = seq := by
  obtain ⟨job, hjob⟩ := h.registered client seq' pending hlookup
  exact hjob.isRequest.mp hrequest

/-- A scan finds a request that is pending with another client nowhere. -/
theorem Booked.countP_scan_of_other (h : Booked e) {client client' : Conn}
    {now seq : UInt64} {pending : PendingAck}
    (hlookup : (e.state.pendingAcks client').lookup seq = some pending)
    (hne : client' ≠ client) :
    (PendingAcks.scan now (e.state.pendingAcks client)).2.countP
      (Envelope.isRequest seq) = 0 := by
  apply PendingAcks.countP_scan_eq_zero
  · intro seq' pending' hlookup' hrequest
    exact h.key hlookup' hrequest
  · intro pending' hlookup'
    obtain ⟨job, hjob⟩ := h.registered client' seq pending hlookup
    obtain ⟨job', hjob'⟩ := h.registered client seq pending' hlookup'
    exact absurd (hjob.of_seq hjob').2.1 hne

/-- A scan finds an entry that is due exactly once, and counts it. -/
theorem Booked.countP_scan (h : Booked e) {client : Conn} {now seq : UInt64}
    {pending : PendingAck}
    (hlookup : (e.state.pendingAcks client).lookup seq = some pending) :
    (PendingAcks.scan now (e.state.pendingAcks client)).2.countP
      (Envelope.isRequest seq) =
        if (pending.scan now).2.isSome then 1 else 0 := by
  have hkey : ∀ seq' pending',
      (e.state.pendingAcks client).lookup seq' = some pending' →
      pending'.envelope.isRequest seq = true → seq' = seq :=
    fun _ _ hlookup' hrequest => h.key hlookup' hrequest
  cases hscan : (pending.scan now).2 with
  | none =>
      apply PendingAcks.countP_scan_eq_zero hkey
      intro pending' hlookup'
      rw [hlookup, Option.some.injEq] at hlookup'
      rw [← hlookup', hscan]
  | some envelope =>
      apply le_antisymm (PendingAcks.countP_scan_le_one hkey)
      refine List.one_le_countP_iff.mpr ⟨envelope, ?_, ?_⟩
      · exact PendingAcks.mem_scan.mpr ⟨seq, pending, hlookup, hscan⟩
      · obtain ⟨job, hjob⟩ := h.registered client seq pending hlookup
        rw [PendingAcks.envelope_of_scan hscan]
        exact hjob.isRequest.mpr rfl

/-- A scan that changes an entry counts it; one that leaves it does not. -/
theorem retryCount_scan {now : UInt64} {pending pending' : PendingAck}
    (h : (pending.scan now).1 = some pending') :
    pending'.envelope = pending.envelope ∧
      pending'.retryCount =
        (if (pending.scan now).2.isSome then 1 else 0) + pending.retryCount := by
  unfold PendingAck.scan at h ⊢
  split at h
  · next hearly =>
      rw [if_pos hearly]
      cases h
      simp
  · next hdue =>
      rw [if_neg hdue]
      split at h
      · cases h
      · next hroom =>
          rw [if_neg hroom]
          cases h
          simp [Nat.add_comm]

/-- Only entries below the limit are sent again. -/
theorem retryCount_lt_of_scan {now : UInt64} {pending : PendingAck}
    (h : (pending.scan now).2.isSome) :
    pending.retryCount < kMaxRetryCount := by
  unfold PendingAck.scan at h
  split at h
  · cases h
  · split at h
    · cases h
    · next hroom => exact Nat.lt_of_not_le hroom

theorem Booked.next_scan (h : Booked e) {t : ClientThread} {job : ClientJob}
    {client : Conn} {now : UInt64} {messages : List Envelope}
    (hnext : Execution.Next e
      (.execute t job (.scan client now) messages) e') : Booked e' := by
  have hcount := scanned_next_scan hnext
  have hbefore : ∀ client' seq pending',
      (e'.state.pendingAcks client').lookup seq = some pending' →
      ∃ pending, (e.state.pendingAcks client').lookup seq = some pending ∧
        pending'.envelope = pending.envelope ∧
        pending'.retryCount =
          (PendingAcks.scan now (e.state.pendingAcks client)).2.countP
            (Envelope.isRequest seq) + pending.retryCount := by
    intro client' seq pending' hlookup
    rw [ProcessStep.pendingAcks hnext.1] at hlookup
    simp only [ProcessLabel.pendingAcks] at hlookup
    split at hlookup
    · next hclient =>
        subst hclient
        rw [PendingAcks.lookup_scan, Option.bind_eq_some_iff] at hlookup
        obtain ⟨pending, hold, hscan⟩ := hlookup
        obtain ⟨henvelope, hretry⟩ := retryCount_scan hscan
        refine ⟨pending, hold, henvelope, ?_⟩
        rw [h.countP_scan hold]
        exact hretry
    · next hclient =>
        refine ⟨pending', hlookup, rfl, ?_⟩
        rw [h.countP_scan_of_other hlookup hclient, Nat.zero_add]
  refine ⟨?_, ?_, ?_, ?_, ?_⟩
  · intro client' seq pending' hlookup
    obtain ⟨pending, hold, henvelope, -⟩ := hbefore client' seq pending' hlookup
    obtain ⟨job', hjob'⟩ := h.registered client' seq pending hold
    rw [henvelope]
    exact ⟨job', hjob'.mono hnext.later⟩
  · intro client' seq pending' hlookup
    obtain ⟨pending, hold, -, hretry⟩ := hbefore client' seq pending' hlookup
    rw [hretry, hcount seq, h.counted client' seq pending hold]
  · intro seq
    rw [hcount seq]
    cases hlookup : (e.state.pendingAcks client).lookup seq with
    | none =>
        rw [PendingAcks.countP_scan_eq_zero
          (fun _ _ hlookup' hrequest => h.key hlookup' hrequest)
          (by simp [hlookup]), Nat.zero_add]
        exact h.bounded seq
    | some pending =>
        rw [h.countP_scan hlookup, ← h.counted client seq pending hlookup]
        split
        · next hdue =>
            have hlt := retryCount_lt_of_scan hdue
            omega
        · rw [Nat.zero_add, h.counted client seq pending hlookup]
          exact h.bounded seq
  · intro seq hnone
    have hfree : ∀ job' client' envelope,
        ¬Registered e job' client' seq envelope :=
      fun job' client' envelope hregistered =>
        hnone job' client' envelope (hregistered.mono hnext.later)
    rw [hcount seq, h.unscanned seq hfree, Nat.add_zero]
    apply PendingAcks.countP_scan_eq_zero
    · exact fun _ _ hlookup' hrequest => h.key hlookup' hrequest
    · intro pending hlookup
      obtain ⟨job', hjob'⟩ := h.registered client seq pending hlookup
      exact absurd hjob' (hfree job' client pending.envelope)
  · intro job' client' now' messages' hmem envelope hmessages
    rcases (mem_trace_next hnext).mp hmem with ⟨t', hl⟩ | hmem
    · cases hl
      rw [(ProcessStep.scan_perm hnext.1).mem_iff] at hmessages
      obtain ⟨seq, pending, hlookup, hscan⟩ := PendingAcks.mem_scan.mp hmessages
      obtain ⟨job'', hjob''⟩ := h.registered client seq pending hlookup
      rw [PendingAcks.envelope_of_scan hscan]
      obtain ⟨-, -, toUid, content, msgNo, at', stamp, -, -, heq⟩ := hjob''.call
      have hseq : pending.envelope.seq = seq := by
        rw [heq]
        rfl
      rw [hseq]
      exact ⟨job'', hjob''.mono hnext.later⟩
    · obtain ⟨job'', hjob''⟩ :=
        h.given job' client' now' messages' hmem envelope hmessages
      exact ⟨job'', hjob''.mono hnext.later⟩

end Booked

/-- The books are right in every run. -/
theorem booked (e : ProcessRun P S) : Booked e := by
  apply Execution.induct (P := Booked)
  · intro e hnil hinit
    have hs : e.state = {} := hinit
    have hempty : ∀ job, trace e job = [] := by
      intro job
      rw [trace, ThreadPool.trace, hnil]
      rfl
    have hscanned : ∀ seq, scanned e seq = 0 := by
      intro seq
      rw [scanned, ThreadPool.total, hnil]
      rfl
    refine ⟨?_, ?_, ?_, ?_, ?_⟩
    · intro client seq pending hlookup
      rw [hs] at hlookup
      cases hlookup
    · intro client seq pending hlookup
      rw [hs] at hlookup
      cases hlookup
    · intro seq
      rw [hscanned]
      exact Nat.zero_le _
    · intro seq _
      exact hscanned seq
    · intro job client now messages hmem
      rw [hempty] at hmem
      cases hmem
  · intro e e' l h hnext
    by_cases hregister : ∃ t job client seq envelope now,
        l = .execute t job (.register client seq envelope) now
    · obtain ⟨t, job, client, seq, envelope, now, rfl⟩ := hregister
      exact h.next_register hnext
    by_cases hscan : ∃ t job client now messages,
        l = .execute t job (.scan client now) messages
    · obtain ⟨t, job, client, now, messages, rfl⟩ := hscan
      exact h.next_scan hnext
    apply h.next_other hnext
    · intro t job client now messages hl
      exact hscan ⟨t, job, client, now, messages, hl⟩
    · intro client seq pending hlookup
      rw [ProcessStep.pendingAcks hnext.1] at hlookup
      unfold ProcessLabel.pendingAcks at hlookup
      split at hlookup
      · exact absurd ⟨_, _, _, _, _, _, rfl⟩ hregister
      · split at hlookup
        · next seq' _ _ =>
            by_cases hseq : seq = seq'
            · rw [hseq, AList.lookup_erase] at hlookup
              cases hlookup
            · rw [AList.lookup_erase_ne hseq] at hlookup
              exact hlookup
        · exact hlookup
      · exact absurd ⟨_, _, _, _, _, rfl⟩ hscan
      · exact hlookup

end ProcessRun

end ReliableDelivery
