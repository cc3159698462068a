import ReliableDelivery.Client.Process

/-!
# What the threads of the client do

`ClientRule` says which commands a job may issue, given what it has issued and
been told before.  A call registers one request, under the numbers it has drawn,
and writes it once.  The retry thread writes what its scans gave it, each
envelope once, and scans again only when all of it has been written.
`lawful` proves it of every job in every run: it is a fact about the job's own
code, so interference plays no part.
-/

namespace ReliableDelivery

open Decimal EnvelopeFactory TransitionSystem Program Client

/-- What a job has issued so far, most recent first. -/
abbrev ClientTrace := Trace ClientCommand ClientCommand.Answer

/-- The chat request that a call makes of its arguments. -/
def chatRequest (uid toUid : UInt64) (content : Bytes)
    (seq msgNo now stamp : UInt64) : Envelope where
  type := .chatReq
  seq := seq
  timestampMs := stamp
  payload := some (.chatReq
    { fromUid := uid, toUid, content,
      clientMsgId := makeClientMsgId uid now msgNo })

/-- The envelope is a chat request with this sequence number. -/
def Envelope.isRequest (seq : UInt64) (envelope : Envelope) : Bool :=
  envelope.type = .chatReq && envelope.seq = seq

/-- Writing a request, successfully or not. -/
def attempts (seq : UInt64) :
    (Σ command : ClientCommand, command.Answer) → ℕ
  | ⟨.sendEnvelope _ envelope, _⟩ => if envelope.isRequest seq then 1 else 0
  | _ => 0

/-- Writing a request successfully. -/
def writes (seq : UInt64) : (Σ command : ClientCommand, command.Answer) → ℕ
  | ⟨.sendEnvelope _ envelope, sent⟩ =>
      if sent && envelope.isRequest seq then 1 else 0
  | _ => 0

/-- Finding a request due in a scan. -/
def scans (seq : UInt64) : (Σ command : ClientCommand, command.Answer) → ℕ
  | ⟨.scan _ _, messages⟩ => messages.countP (Envelope.isRequest seq)
  | _ => 0

/-- The request was registered by this job. -/
def Registers (τ : ClientTrace) (client : Conn) (seq : UInt64)
    (envelope : Envelope) : Prop :=
  ∃ now, ⟨.register client seq envelope, now⟩ ∈ τ

/-- A call registers the request it has just made, and no other. -/
def MayRegister (job : ClientJob) (τ : ClientTrace) (seq : UInt64)
    (envelope : Envelope) : Prop :=
  (∃ toUid content msgNo now stamp, job.task = .send toUid content ∧
    ⟨.fetchAdd .nextSeq, seq⟩ ∈ τ ∧ ⟨.fetchAdd .nextClientMsgNo, msgNo⟩ ∈ τ ∧
    envelope = chatRequest job.uid toUid content seq msgNo now stamp) ∧
  ∀ client seq envelope, ¬Registers τ client seq envelope

/-- A call writes the request it has registered, once. -/
def MaySend (job : ClientJob) (τ : ClientTrace) (envelope : Envelope) : Prop :=
  (∃ toUid content, job.task = .send toUid content) ∧
  (∃ seq, Registers τ job.client seq envelope) ∧
  ∀ client envelope sent, ⟨.sendEnvelope client envelope, sent⟩ ∉ τ

/-- The retry thread writes what a scan gave it, as often as it was given. -/
def MayResend (job : ClientJob) (τ : ClientTrace) (envelope : Envelope) :
    Prop :=
  (∃ rounds, job.task = .retry rounds) ∧
  (∃ now messages, ⟨.scan job.client now, messages⟩ ∈ τ ∧
    envelope ∈ messages) ∧
  tally (attempts envelope.seq) τ < tally (scans envelope.seq) τ

/-- A call takes back a request that it could not write, and the receiving
thread ends the wait for a request that was acknowledged. -/
def MayErase (job : ClientJob) (τ : ClientTrace) (seq : UInt64) : Prop :=
  (∃ toUid content envelope, job.task = .send toUid content ∧
    Registers τ job.client seq envelope ∧
    ⟨.sendEnvelope job.client envelope, false⟩ ∈ τ) ∨
  ∃ envelope ack, job.task = .handle envelope ∧ envelope.ack? = some ack ∧
    ack.seq = seq

/-- The retry thread scans when it has written all it was given. -/
def MayScan (job : ClientJob) (τ : ClientTrace) : Prop :=
  (∃ rounds, job.task = .retry rounds) ∧
  ∀ seq, tally (writes seq) τ = tally (scans seq) τ

/-- A call succeeds when its request has been written. -/
def MaySucceed (job : ClientJob) (τ : ClientTrace) : Prop :=
  ∃ seq envelope, Registers τ job.client seq envelope ∧
    ⟨.sendEnvelope job.client envelope, true⟩ ∈ τ

/-- What a job may issue. -/
def ClientRule (job : ClientJob) (τ : ClientTrace) : ClientCommand → Prop
  | .fetchAdd counter => ∀ n, ⟨.fetchAdd counter, n⟩ ∉ τ
  | .register client seq envelope =>
      client = job.client ∧ MayRegister job τ seq envelope
  | .sendEnvelope client envelope =>
      client = job.client ∧ (envelope.type = .chatReq →
        MaySend job τ envelope ∨ MayResend job τ envelope)
  | .erase client seq => client = job.client ∧ MayErase job τ seq
  | .scan client _ => client = job.client ∧ MayScan job τ
  | .returns ok => ok = true →
      ∀ toUid content, job.task = .send toUid content → MaySucceed job τ
  | _ => True

section Code

variable {job : ClientJob} {τ : ClientTrace}

/-! ## Calls -/

theorem follows_sendRequest {toUid msgNo now stamp seq : UInt64}
    {content : Bytes} (htask : job.task = .send toUid content)
    (hseq : ⟨.fetchAdd .nextSeq, seq⟩ ∈ τ)
    (hmsgNo : ⟨.fetchAdd .nextClientMsgNo, msgNo⟩ ∈ τ)
    (hregister : ∀ client seq envelope, ¬Registers τ client seq envelope)
    (hsend : ∀ client envelope sent,
      ⟨.sendEnvelope client envelope, sent⟩ ∉ τ) :
    Follows (ClientRule job) (fun τ ok => ok = true → MaySucceed job τ)
      (sendRequest job.client seq
        (chatRequest job.uid toUid content seq msgNo now stamp)) τ := by
  refine follows_call.mpr ⟨⟨rfl, ⟨toUid, content, msgNo, now, stamp, htask,
    hseq, hmsgNo, rfl⟩, hregister⟩, fun at' => ?_⟩
  refine follows_call.mpr ⟨⟨rfl, fun _ => .inl ⟨⟨toUid, content, htask⟩,
    ⟨seq, at', by simp⟩, ?_⟩⟩, fun sent => ?_⟩
  · intro client envelope sent hmem
    rcases List.mem_cons.mp hmem with heq | hmem
    · cases heq
    · exact hsend client envelope sent hmem
  · cases sent with
    | true =>
        refine follows_done.mpr fun _ => ?_
        exact ⟨seq, _, ⟨at', by simp⟩, by simp⟩
    | false =>
        refine follows_call.mpr ⟨⟨rfl, .inl ⟨toUid, content, _, htask,
          ⟨at', by simp⟩, by simp⟩⟩, fun _ => ?_⟩
        exact follows_done.mpr (by simp)

theorem follows_sendMessage {toUid : UInt64} {content : Bytes}
    (htask : job.task = .send toUid content) :
    Follows (ClientRule job) (fun τ ok => ok = true → MaySucceed job τ)
      (sendMessage job.client job.uid toUid content) [] := by
  refine follows_call.mpr ⟨trivial, fun stop => ?_⟩
  cases stop with
  | true => exact follows_done.mpr (by simp)
  | false =>
      refine follows_call.mpr ⟨trivial, fun loggedIn => ?_⟩
      cases loggedIn with
      | false => exact follows_done.mpr (by simp)
      | true =>
          refine follows_call.mpr ⟨by simp [ClientRule], fun seq => ?_⟩
          refine follows_call.mpr ⟨by simp [ClientRule], fun msgNo => ?_⟩
          refine follows_call.mpr ⟨trivial, fun now => ?_⟩
          refine follows_call.mpr ⟨trivial, fun stamp => ?_⟩
          apply follows_sendRequest htask
          · simp
          · simp
          · intro client seq envelope
            simp [Registers]
          · simp

/-! ## The retry thread -/

/-- All that the scans gave has been written. -/
def AllWritten (τ : ClientTrace) : Prop :=
  ∀ seq, tally (attempts seq) τ = tally (scans seq) τ ∧
    tally (writes seq) τ = tally (scans seq) τ

/-- These envelopes, given by scans, are left to be written. -/
def Owed (client : Conn) (τ : ClientTrace) (envelopes : List Envelope) : Prop :=
  (∀ envelope ∈ envelopes, ∃ now messages,
    ⟨.scan client now, messages⟩ ∈ τ ∧ envelope ∈ messages) ∧
  ∀ seq,
    tally (attempts seq) τ + envelopes.countP (Envelope.isRequest seq) =
      tally (scans seq) τ ∧
    tally (writes seq) τ + envelopes.countP (Envelope.isRequest seq) =
      tally (scans seq) τ

/-- A scan owes what it found. -/
theorem AllWritten.owed_scan (h : AllWritten τ) (client : Conn) (now : UInt64)
    (messages : List Envelope) :
    Owed client (⟨.scan client now, messages⟩ :: τ) messages := by
  refine ⟨?_, ?_⟩
  · intro envelope hmem
    exact ⟨now, messages, by simp, hmem⟩
  · intro seq
    obtain ⟨hattempts, hwrites⟩ := h seq
    simp only [tally_cons, attempts, writes, scans]
    omega

/-- Writing the first envelope leaves the others. -/
theorem Owed.write {client : Conn} {envelope : Envelope}
    {envelopes : List Envelope} (h : Owed client τ (envelope :: envelopes)) :
    Owed client (⟨.sendEnvelope client envelope, true⟩ :: τ) envelopes := by
  refine ⟨?_, ?_⟩
  · intro envelope' hmem
    obtain ⟨now, messages, hscan, hmessages⟩ :=
      h.1 envelope' (List.mem_cons_of_mem _ hmem)
    exact ⟨now, messages, List.mem_cons_of_mem _ hscan, hmessages⟩
  · intro seq
    obtain ⟨hattempts, hwrites⟩ := h.2 seq
    rw [List.countP_cons] at hattempts hwrites
    simp only [tally_cons, attempts, writes, scans, Bool.true_and]
    omega

theorem Owed.mayResend {rounds : ℕ} {envelope : Envelope}
    {envelopes : List Envelope} (htask : job.task = .retry rounds)
    (htype : envelope.type = .chatReq)
    (h : Owed job.client τ (envelope :: envelopes)) :
    MayResend job τ envelope := by
  refine ⟨⟨rounds, htask⟩, h.1 envelope List.mem_cons_self, ?_⟩
  obtain ⟨hattempts, -⟩ := h.2 envelope.seq
  have hfirst : envelope.isRequest envelope.seq = true := by
    simp [Envelope.isRequest, htype]
  rw [List.countP_cons, hfirst] at hattempts
  simp only [if_true] at hattempts
  omega

/-- What was looked at in between does not matter. -/
theorem Owed.look {client client' : Conn} {stop : Bool}
    {envelopes : List Envelope} (h : Owed client τ envelopes) :
    Owed client (⟨.stopped client', stop⟩ :: τ) envelopes := by
  refine ⟨?_, ?_⟩
  · intro envelope hmem
    obtain ⟨now, messages, hscan, hmessages⟩ := h.1 envelope hmem
    exact ⟨now, messages, List.mem_cons_of_mem _ hscan, hmessages⟩
  · intro seq
    simp only [tally_cons, attempts, writes, scans, Nat.zero_add]
    exact h.2 seq

theorem follows_resend {rounds : ℕ} (htask : job.task = .retry rounds)
    {envelopes : List Envelope} (h : Owed job.client τ envelopes) :
    Follows (ClientRule job) (fun τ goOn => goOn = true → AllWritten τ)
      (resend job.client envelopes) τ := by
  induction envelopes generalizing τ with
  | nil => exact follows_done.mpr fun _ seq => h.2 seq
  | cons envelope envelopes ih =>
      refine follows_call.mpr ⟨trivial, fun stop => ?_⟩
      cases stop with
      | true => exact follows_done.mpr (by simp)
      | false =>
          have howed : Owed job.client (⟨.stopped job.client, false⟩ :: τ)
              (envelope :: envelopes) := h.look
          refine follows_call.mpr ⟨⟨rfl, fun htype =>
            .inr (howed.mayResend htask htype)⟩, fun sent => ?_⟩
          cases sent with
          | true => exact ih howed.write
          | false =>
              refine follows_call.mpr ⟨trivial, fun _ => ?_⟩
              exact follows_done.mpr (by simp)

theorem follows_retryLoop {rounds : ℕ} (htask : job.task = .retry rounds)
    (n : ℕ) (h : AllWritten τ) :
    Follows (ClientRule job) (fun _ _ => True) (retryLoop job.client n) τ := by
  induction n generalizing τ with
  | zero => exact follows_done.mpr trivial
  | succ n ih =>
      refine follows_call.mpr ⟨trivial, fun stop => ?_⟩
      cases stop with
      | true => exact follows_done.mpr trivial
      | false =>
          refine follows_call.mpr ⟨trivial, fun now => ?_⟩
          have hwritten : AllWritten (⟨.nowMs, now⟩ ::
              ⟨.stopped job.client, false⟩ :: τ : ClientTrace) := by
            intro seq
            simp only [tally_cons, attempts, writes, scans, Nat.zero_add]
            exact h seq
          refine follows_call.mpr ⟨⟨rfl, ⟨rounds, htask⟩,
            fun seq => (hwritten seq).2⟩, fun messages => ?_⟩
          apply Follows.bind (follows_resend htask
            (hwritten.owed_scan job.client now messages))
          intro goOn τ' _ hgoOn
          cases goOn with
          | true => exact ih (hgoOn rfl)
          | false => exact follows_done.mpr trivial

/-! ## The other jobs -/

theorem follows_handleEnvelope {envelope : Envelope}
    (htask : job.task = .handle envelope) :
    Follows (ClientRule job) (fun _ _ => True)
      (handleEnvelope job.client envelope) τ := by
  unfold handleEnvelope
  split
  · unfold Client.handleAck
    split
    · exact follows_done.mpr trivial
    · next ack hack =>
        refine follows_call.mpr ⟨⟨rfl, .inr ⟨envelope, ack, htask, hack,
          rfl⟩⟩, fun _ => ?_⟩
        exact follows_done.mpr trivial
  · unfold handleChatPush
    split
    · exact follows_done.mpr trivial
    · next push hpush =>
        refine follows_call.mpr ⟨trivial, fun loggedIn => ?_⟩
        cases loggedIn with
        | false => exact follows_done.mpr trivial
        | true =>
            refine follows_call.mpr ⟨trivial, fun _ => ?_⟩
            simp only [done_bind]
            split
            · exact follows_done.mpr trivial
            · refine follows_call.mpr ⟨trivial, fun stamp => ?_⟩
              refine follows_call.mpr ⟨⟨rfl, by simp⟩, fun _ => ?_⟩
              exact follows_done.mpr trivial
  · unfold handleLoginResponse
    split
    · refine follows_call.mpr ⟨trivial, fun _ => ?_⟩
      exact follows_done.mpr trivial
    · refine follows_call.mpr ⟨trivial, fun _ => ?_⟩
      exact follows_done.mpr trivial
  · exact follows_done.mpr trivial

theorem follows_startClient :
    Follows (ClientRule job) (fun _ _ => True)
      (startClient job.client job.uid) τ := by
  refine follows_call.mpr ⟨trivial, fun connected => ?_⟩
  cases connected with
  | false => exact follows_done.mpr trivial
  | true =>
      refine follows_call.mpr ⟨trivial, fun _ => ?_⟩
      refine follows_call.mpr ⟨trivial, fun stamp => ?_⟩
      refine follows_call.mpr ⟨⟨rfl, by simp⟩, fun sent => ?_⟩
      cases sent with
      | false =>
          refine follows_call.mpr ⟨trivial, fun _ => ?_⟩
          exact follows_done.mpr trivial
      | true =>
          refine follows_call.mpr ⟨trivial, fun ok => ?_⟩
          cases ok with
          | false =>
              refine follows_call.mpr ⟨trivial, fun _ => ?_⟩
              exact follows_done.mpr trivial
          | true =>
              refine follows_call.mpr ⟨trivial, fun _ => ?_⟩
              exact follows_done.mpr trivial

/-- Every job runs code that keeps to the rule. -/
theorem follows_code (job : ClientJob) :
    Follows (ClientRule job) (fun _ _ => True) job.code [] := by
  unfold ClientJob.code
  split
  · next htask =>
      apply Follows.bind follows_startClient
      intro ok τ _ _
      refine follows_call.mpr ⟨?_, fun _ => follows_done.mpr trivial⟩
      intro _ toUid content hsend
      rw [htask] at hsend
      cases hsend
  · exact follows_call.mpr ⟨trivial, fun _ => follows_done.mpr trivial⟩
  · next toUid content htask =>
      apply Follows.bind (follows_sendMessage htask)
      intro ok τ _ hok
      refine follows_call.mpr ⟨?_, fun _ => follows_done.mpr trivial⟩
      intro htrue _ _ _
      exact hok htrue
  · next envelope htask => exact follows_handleEnvelope htask
  · refine follows_call.mpr ⟨trivial, fun _ => ?_⟩
    exact follows_call.mpr ⟨trivial, fun _ => follows_done.mpr trivial⟩
  · next rounds htask =>
      apply follows_retryLoop htask
      intro seq
      exact ⟨rfl, rfl⟩

end Code

/-! ## Runs -/

namespace ProcessRun

variable {P : Platform} {S : Sessions}

/-- What a job has issued in a run. -/
abbrev trace (e : ProcessRun P S) (job : ClientJob) : ClientTrace :=
  (clientThreads P S).trace e job

theorem mem_trace_next {e e' : ProcessRun P S} {l : ProcessLabel}
    {job : ClientJob} {a : Σ command : ClientCommand, command.Answer}
    (hnext : Execution.Next e l e') :
    a ∈ trace e' job ↔
      (∃ t, l = .execute t job a.1 a.2) ∨ a ∈ trace e job := by
  rw [← ProcessLabel.action_eq_some]
  exact ThreadPool.mem_trace_next hnext

/-- Commands are issued by jobs that have been numbered. -/
theorem number_lt (e : ProcessRun P S) {job : ClientJob}
    (h : e.trace job ≠ []) : job.number < e.state.nextJob := by
  revert h
  apply Execution.induct (P := fun e : ProcessRun P S =>
    trace e job ≠ [] → job.number < e.state.nextJob)
  · intro e hnil _ htrace
    exact absurd (by rw [trace, ThreadPool.trace, hnil]; rfl) htrace
  · intro e e' l ih hnext htrace
    by_cases hacts : ∃ a, l.action = some (job, a)
    · obtain ⟨a, ha⟩ := hacts
      obtain ⟨t, rfl⟩ := ProcessLabel.action_eq_some.mp ha
      have hstep : ProcessStep P S e.state (.execute t job a.1 a.2) e'.state :=
        hnext.1
      obtain ⟨next, s'', hrunning, heffect, hstate⟩ := hstep.execute_inv
      rw [hstate]
      simp only [ProcessState.setRunning, heffect.threads.2]
      exact (numbered e).below t job _ hrunning
    · have hsame : trace e' job = trace e job :=
        ThreadPool.trace_next_of_other hnext (not_exists.mp hacts)
      rw [hsame] at htrace
      have hstep : ProcessStep P S e.state l e'.state := hnext.1
      exact (ih htrace).trans_le hstep.nextJob_le

/-- The past of every job keeps to a rule that the code follows. -/
theorem lawful_of_follows {rule : ClientJob → ClientTrace → ClientCommand → Prop}
    (hcode : ∀ job, Follows (rule job) (fun _ _ => True) (ClientJob.code job) [])
    (e : ProcessRun P S) (job : ClientJob) : Lawful (rule job) (e.trace job) := by
  apply (clientThreads P S).lawful_trace _ (hcode job)
  · intro s l s' a hstep haction
    obtain ⟨t, rfl⟩ := ProcessLabel.action_eq_some.mp haction
    have hexecute : ProcessStep P S s (.execute t job a.1 a.2) s' := hstep
    obtain ⟨next, -, hrunning, -, -⟩ := hexecute.execute_inv
    exact ⟨t, next, hrunning⟩
  · rintro e e' l hnext ⟨t, rfl⟩
    have hsame : (clientThreads P S).trace e' job = trace e job :=
      ThreadPool.trace_next_of_other hnext (by intro a ha; cases ha)
    rw [hsame]
    by_contra hne
    have hbelow := number_lt e hne
    have hstep : ProcessStep P S e.state (.begin t job) e'.state := hnext.1
    obtain ⟨-, hnumber, -⟩ := hstep.begin_inv
    omega

theorem lawful (e : ProcessRun P S) (job : ClientJob) :
    Lawful (ClientRule job) (e.trace job) :=
  lawful_of_follows follows_code e job

end ProcessRun

end ReliableDelivery
