import ReliableDelivery.Client.Bookkeeping

/-!
# How often the client writes a request

A client has one retry thread.  It writes a request as often as its scans found
it due, which is at most `kMaxRetryCount` times, and gives it up only after that
many successful writes.  The call itself writes the request once.
-/

namespace ReliableDelivery

open Decimal TransitionSystem Program Client

variable {P : Platform} {S : Sessions}

namespace ProcessRun

/-! ## Jobs that have begun -/

/-- In the run so far, the job has begun. -/
def Begun (e : ProcessRun P S) (job : ClientJob) : Prop :=
  ∃ s t, (s, .begin t job) ∈ e.history

theorem Begun.mono {e e' : ProcessRun P S} {job : ClientJob}
    (h : Begun e job) (hlater : Execution.Later e e') : Begun e' job := by
  obtain ⟨s, t, hmem⟩ := h
  exact ⟨s, t, hlater.mem_history hmem⟩

/-- What is running has begun. -/
theorem begun_of_running (e : ProcessRun P S) {t : ClientThread}
    {job : ClientJob} {code : ClientProgram Unit}
    (h : e.state.running t = some (job, code)) : Begun e job := by
  revert t code
  apply Execution.induct (P := fun e : ProcessRun P S => ∀ {t code},
    e.state.running t = some (job, code) → Begun e job)
  · intro e _ hinit t code hrunning
    have hs : e.state = {} := hinit
    rw [hs] at hrunning
    cases hrunning
  · intro e e' l ih hnext t code hrunning
    rcases ProcessStep.running hnext.1 hrunning with
      ⟨hsame, -⟩ | ⟨-, rfl⟩ | ⟨command, next, answer, hcalling, -, -⟩
    · exact (ih hsame).mono hnext.later
    · exact ⟨e.state, t, hnext.mem_history⟩
    · exact (ih hcalling).mono hnext.later

/-- What has issued a command has begun. -/
theorem begun_of_mem_trace (e : ProcessRun P S) {job : ClientJob}
    {a : Σ command : ClientCommand, command.Answer} (h : a ∈ e.trace job) :
    Begun e job := by
  obtain ⟨⟨s, l⟩, hmem, haction⟩ := ThreadPool.mem_trace.mp h
  obtain ⟨t, rfl⟩ := ProcessLabel.action_eq_some.mp haction
  obtain ⟨e₁, e₂, -, hnext, hlater⟩ := Execution.exists_next_of_mem hmem
  have hstep : ProcessStep P S e₁.state (.execute t job a.1 a.2) e₂.state :=
    hnext.1
  obtain ⟨next, s'', hrunning, -, -⟩ := hstep.execute_inv
  exact (begun_of_running e₁ hrunning).mono (hnext.later.trans hlater)

/-- Jobs are about the clients of the process. -/
theorem Begun.session {e : ProcessRun P S} {job : ClientJob}
    (h : Begun e job) : S job.client = some job.uid := by
  obtain ⟨s, t, hmem⟩ := h
  obtain ⟨e₁, e₂, -, hnext, -⟩ := Execution.exists_next_of_mem hmem
  have hstep : ProcessStep P S e₁.state (.begin t job) e₂.state := hnext.1
  exact hstep.begin_inv.1

end ProcessRun

/-- The retry thread of the client is at work. -/
def ProcessState.Retrying (s : ProcessState) (client : Conn) : Prop :=
  (s.clients client).retryThread = .taken

theorem ProcessState.Retrying.modify {s : ProcessState} {client client' : Conn}
    {change : ClientState → ClientState} (h : s.Retrying client)
    (hchange : ∀ c, c.retryThread = .taken →
      (change c).retryThread = .taken) :
    (s.modify client' change).Retrying client := by
  simp only [ProcessState.Retrying, ProcessState.modify, Function.update_apply]
  split
  · next heq =>
      apply hchange
      rw [← heq]
      exact h
  · exact h

theorem ClientEffect.retrying {s s' : ProcessState} {command : ClientCommand}
    {answer : command.Answer} (h : ClientEffect P s command answer s')
    {client : Conn} (hs : s.Retrying client) : s'.Retrying client := by
  cases h with
  | startRetry client' =>
      apply hs.modify
      intro c hc
      simp [hc]
  | failPendingLogin client' =>
      apply hs.modify
      intro c hc
      split
      · exact hc
      · exact hc
  | setStop client' => exact hs.modify fun _ hc => hc
  | handleLogin client' ok => exact hs.modify fun _ hc => hc
  | register client' seq envelope now => exact hs.modify fun _ hc => hc
  | erase client' seq => exact hs.modify fun _ hc => hc
  | scan client' now messages hperm => exact hs.modify fun _ hc => hc
  | pushMessage client' envelope => exact hs.modify fun _ hc => hc
  | startReceiver client' => exact hs.modify fun _ hc => hc
  | _ => exact hs

/-- A retry thread that is at work stays so. -/
theorem ProcessStep.retrying {s s' : ProcessState} {l : ProcessLabel}
    (h : ProcessStep P S s l s') {client : Conn} (hs : s.Retrying client) :
    s'.Retrying client := by
  cases h with
  | begin t job hsession hnumber hidle hready =>
      have hnumbered :
          ({ s with nextJob := s.nextJob + 1 } : ProcessState).Retrying
            client := hs
      have htaken : (s.taken job).Retrying client := by
        unfold ProcessState.taken
        split
        · exact hnumbered.modify fun _ hc => hc
        · exact hnumbered.modify fun _ _ => rfl
        · exact hs
      exact htaken
  | execute t job command next answer s'' hrunning heffect =>
      exact heffect.retrying hs
  | finish t job hrunning => exact hs

namespace ProcessRun

/-- A client has one retry thread, which is started once. -/
theorem retry_unique (e : ProcessRun P S) (client : Conn) :
    (∀ job rounds, Begun e job → job.client = client →
      job.task = .retry rounds →
      e.state.Retrying client) ∧
    ∀ job job' rounds rounds', Begun e job → Begun e job' →
      job.client = client → job'.client = client →
      job.task = .retry rounds → job'.task = .retry rounds' → job = job' := by
  apply Execution.induct (P := fun e : ProcessRun P S =>
    (∀ job rounds, Begun e job → job.client = client →
      job.task = .retry rounds →
      e.state.Retrying client) ∧
    ∀ job job' rounds rounds', Begun e job → Begun e job' →
      job.client = client → job'.client = client →
      job.task = .retry rounds → job'.task = .retry rounds' → job = job')
  · intro e hnil _
    have hnone : ∀ job, ¬Begun e job := by
      rintro job ⟨s, t, hmem⟩
      rw [hnil] at hmem
      cases hmem
    exact ⟨fun job _ hjob => absurd hjob (hnone job),
      fun job _ _ _ hjob => absurd hjob (hnone job)⟩
  · rintro e e' l ⟨htaken, hunique⟩ hnext
    have hcases : ∀ job, Begun e' job → Begun e job ∨ ∃ t, l = .begin t job := by
      rintro job ⟨s, t, hmem⟩
      rw [hnext.2] at hmem
      rcases List.mem_cons.mp hmem with heq | hmem
      · exact .inr ⟨t, (Prod.mk.inj heq).2.symm⟩
      · exact .inl ⟨s, t, hmem⟩
    have hbegin : ∀ t job rounds, l = .begin t job → job.client = client →
        job.task = .retry rounds →
        (e.state.clients client).retryThread = .ready ∧
        e'.state.Retrying client := by
      rintro t job rounds rfl rfl htask
      have hstep : ProcessStep P S e.state (.begin t job) e'.state := hnext.1
      obtain ⟨-, -, -, hready, hstate⟩ := hstep.begin_inv
      refine ⟨?_, ?_⟩
      · cases t with
        | retry client =>
            simp only [ProcessState.ready, htask, Bool.and_eq_true,
              decide_eq_true_eq] at hready
            rw [← hready.1]
            exact hready.2
        | _ => simp [ProcessState.ready, htask] at hready
      · rw [hstate]
        simp [ProcessState.Retrying, ProcessState.setRunning,
          ProcessState.taken, htask, ProcessState.modify]
    refine ⟨?_, ?_⟩
    · intro job rounds hjob hclient htask
      rcases hcases job hjob with hold | ⟨t, hl⟩
      · exact ProcessStep.retrying hnext.1
          (htaken job rounds hold hclient htask)
      · exact (hbegin t job rounds hl hclient htask).2
    · intro job job' rounds rounds' hjob hjob' hclient hclient' htask htask'
      rcases hcases job hjob with hold | ⟨t, hl⟩
      · rcases hcases job' hjob' with hold' | ⟨t', hl'⟩
        · exact hunique job job' rounds rounds' hold hold' hclient hclient'
            htask htask'
        · have hbefore := htaken job rounds hold hclient htask
          rw [ProcessState.Retrying,
            (hbegin t' job' rounds' hl' hclient' htask').1] at hbefore
          cases hbefore
      · rcases hcases job' hjob' with hold' | ⟨t', hl'⟩
        · have hbefore := htaken job' rounds' hold' hclient' htask'
          rw [ProcessState.Retrying,
            (hbegin t job rounds hl hclient htask).1] at hbefore
          cases hbefore
        · rw [hl] at hl'
          cases hl'
          rfl

/-! ## Writing -/

/-- What is written as a chat request was registered, and is written by the call
that registered it or by the retry thread. -/
theorem registered_of_send (e : ProcessRun P S) {job : ClientJob}
    {client : Conn} {envelope : Envelope} {sent : Bool}
    (h : ⟨.sendEnvelope client envelope, sent⟩ ∈ e.trace job)
    (htype : envelope.type = .chatReq) :
    ∃ call, Registered e call client envelope.seq envelope ∧
      (job = call ∨
        job.client = client ∧ ∃ rounds, job.task = .retry rounds) := by
  obtain ⟨τ, hsuffix, -, hclient, hrule⟩ := (e.lawful job).rule_of_mem h
  rw [hclient]
  rcases hrule htype with ⟨-, ⟨seq, now, hregister⟩, -⟩ |
    ⟨⟨rounds, htask⟩, ⟨now, messages, hscan, hmessages⟩, -⟩
  · have hregistered : Registered e job job.client seq envelope :=
      ⟨now, hsuffix.mem hregister⟩
    obtain ⟨-, -, toUid, content, msgNo, at', stamp, -, -, heq⟩ :=
      hregistered.call
    have hseq : envelope.seq = seq := by
      rw [heq]
      rfl
    rw [hseq]
    exact ⟨job, hregistered, .inl rfl⟩
  · obtain ⟨call, hcall⟩ := (booked e).given job job.client now messages
      (hsuffix.mem hscan) envelope hmessages
    exact ⟨call, hcall, .inr ⟨rfl, rounds, htask⟩⟩

/-- A call writes once. -/
theorem tally_attempts_le_one {job : ClientJob} {τ : ClientTrace}
    {toUid : UInt64} {content : Bytes} (htask : job.task = .send toUid content)
    (h : Lawful (ClientRule job) τ) (seq : UInt64) :
    tally (attempts seq) τ ≤ 1 := by
  induction τ with
  | nil => simp
  | cons a τ ih =>
      rw [tally_cons]
      by_cases hzero : attempts seq a = 0
      · rw [hzero, Nat.zero_add]
        exact ih h.2
      · obtain ⟨command, answer⟩ := a
        cases command with
        | sendEnvelope client envelope =>
            have hone : attempts seq ⟨.sendEnvelope client envelope, answer⟩ ≤
                1 := by
              simp only [attempts]
              split <;> omega
            have htype : envelope.type = .chatReq := by
              by_contra hne
              simp [attempts, Envelope.isRequest, hne] at hzero
            obtain ⟨-, hrule⟩ := h.1
            rcases hrule htype with ⟨-, -, hnone⟩ | ⟨⟨rounds, hretry⟩, -⟩
            · have hrest : tally (attempts seq) τ = 0 := by
                apply List.sum_eq_zero
                intro n hn
                obtain ⟨⟨command', answer'⟩, hmem, rfl⟩ := List.mem_map.mp hn
                cases command' with
                | sendEnvelope client' envelope' =>
                    exact absurd hmem (hnone client' envelope' answer')
                | _ => rfl
              omega
            · rw [htask] at hretry
              cases hretry
        | _ => exact absurd rfl hzero

/-- The retry thread writes what its scans gave it. -/
theorem tally_attempts_le_scans {job : ClientJob} {τ : ClientTrace}
    {rounds : ℕ} (htask : job.task = .retry rounds)
    (h : Lawful (ClientRule job) τ) (seq : UInt64) :
    tally (attempts seq) τ ≤ tally (scans seq) τ := by
  induction τ with
  | nil => simp
  | cons a τ ih =>
      have hrest := ih h.2
      rw [tally_cons, tally_cons]
      by_cases hzero : attempts seq a = 0
      · omega
      · obtain ⟨command, answer⟩ := a
        cases command with
        | sendEnvelope client envelope =>
            have hrequest : envelope.isRequest seq = true := by
              by_contra hne
              simp [attempts, hne] at hzero
            simp only [Envelope.isRequest, Bool.and_eq_true,
              decide_eq_true_eq] at hrequest
            obtain ⟨-, hrule⟩ := h.1
            rcases hrule hrequest.1 with
              ⟨⟨toUid, content, hsend⟩, -⟩ | ⟨-, -, hless⟩
            · rw [htask] at hsend
              cases hsend
            · rw [hrequest.2] at hless
              have hone : attempts seq
                  ⟨.sendEnvelope client envelope, answer⟩ ≤ 1 := by
                simp only [attempts]
                split <;> omega
              omega
        | _ => exact absurd rfl hzero

/-- How often the request was written to the socket, successfully or not. -/
def attempted (e : ProcessRun P S) (seq : UInt64) : ℕ :=
  (clientThreads P S).total e (attempts seq)

/-- Whoever writes the request is the call or the retry thread of its client. -/
theorem writer_cases (e : ProcessRun P S) {seq : UInt64} {job : ClientJob}
    {a : Σ command : ClientCommand, command.Answer} (hmem : a ∈ e.trace job)
    (hcounts : attempts seq a ≠ 0) :
    ∃ call client envelope, Registered e call client seq envelope ∧
      (job = call ∨ job.client = client ∧ Begun e job ∧
        ∃ rounds, job.task = .retry rounds) := by
  obtain ⟨command, answer⟩ := a
  cases command with
  | sendEnvelope client envelope =>
      have hrequest : envelope.isRequest seq = true := by
        by_contra hne
        simp [attempts, hne] at hcounts
      simp only [Envelope.isRequest, Bool.and_eq_true,
        decide_eq_true_eq] at hrequest
      obtain ⟨call, hcall, hjob⟩ := registered_of_send e hmem hrequest.1
      rw [hrequest.2] at hcall
      refine ⟨call, client, envelope, hcall, ?_⟩
      rcases hjob with hjob | ⟨hclient, hretry⟩
      · exact .inl hjob
      · exact .inr ⟨hclient, begun_of_mem_trace e hmem, hretry⟩
  | _ => exact absurd rfl hcounts

/-- No request is written more often than its retries allow. -/
theorem attempted_le (e : ProcessRun P S) (seq : UInt64) :
    e.attempted seq ≤ 1 + kMaxRetryCount := by
  have hwriter : ∀ x ∈ e.history, ∀ job a,
      (clientThreads P S).action x.2 = some (job, a) → attempts seq a ≠ 0 →
      ∃ call client envelope, Registered e call client seq envelope ∧
        (job = call ∨ job.client = client ∧ Begun e job ∧
          ∃ rounds, job.task = .retry rounds) := by
    intro x hx job a haction hcounts
    exact writer_cases e (ThreadPool.mem_trace.mpr ⟨x, hx, haction⟩) hcounts
  by_cases hregistered : ∃ call client envelope,
      Registered e call client seq envelope
  · obtain ⟨call, client, envelope, hcall⟩ := hregistered
    obtain ⟨-, -, toUid, content, -, -, -, hsend, -⟩ := hcall.call
    have hfirst : tally (attempts seq) (e.trace call) ≤ 1 :=
      tally_attempts_le_one hsend (e.lawful call) seq
    have hcaller : ∀ x ∈ e.history, ∀ job a,
        (clientThreads P S).action x.2 = some (job, a) → attempts seq a ≠ 0 →
        job = call ∨ job.client = client ∧ Begun e job ∧
          ∃ rounds, job.task = .retry rounds := by
      intro x hx job a haction hcounts
      obtain ⟨call', client', envelope', hcall', hjob⟩ :=
        hwriter x hx job a haction hcounts
      obtain ⟨rfl, rfl, -⟩ := hcall.of_seq hcall'
      exact hjob
    by_cases hretry : ∃ job rounds, Begun e job ∧ job.client = client ∧
        job.task = .retry rounds
    · obtain ⟨retry, rounds, hbegun, hclient, htask⟩ := hretry
      have htotal : e.attempted seq ≤ ([call, retry].map fun job =>
          tally (attempts seq) (e.trace job)).sum := by
        apply ThreadPool.total_le_sum_tally
        intro x hx job a haction hcounts
        rcases hcaller x hx job a haction hcounts with
          rfl | ⟨hclient', hbegun', rounds', htask'⟩
        · simp
        · have heq := (e.retry_unique client).2 job retry rounds' rounds hbegun'
            hbegun hclient' hclient htask' htask
          simp [heq]
      have hagain : tally (attempts seq) (e.trace retry) ≤
          tally (scans seq) (e.trace retry) :=
        tally_attempts_le_scans htask (e.lawful retry) seq
      have hscans : tally (scans seq) (e.trace retry) ≤ e.scanned seq :=
        ThreadPool.tally_trace_le_total e retry
      have hbound := (booked e).bounded seq
      simp only [List.map_cons, List.map_nil, List.sum_cons,
        List.sum_nil] at htotal
      omega
    · have htotal : e.attempted seq ≤ ([call].map fun job =>
          tally (attempts seq) (e.trace job)).sum := by
        apply ThreadPool.total_le_sum_tally
        intro x hx job a haction hcounts
        rcases hcaller x hx job a haction hcounts with
          rfl | ⟨hclient', hbegun', rounds', htask'⟩
        · simp
        · exact absurd ⟨job, rounds', hbegun', hclient', htask'⟩ hretry
      simp only [List.map_cons, List.map_nil, List.sum_cons,
        List.sum_nil] at htotal
      omega
  · have htotal : e.attempted seq ≤ (([] : List ClientJob).map fun job =>
        tally (attempts seq) (e.trace job)).sum := by
      apply ThreadPool.total_le_sum_tally
      intro x hx job a haction hcounts
      obtain ⟨call, client, envelope, hcall, -⟩ :=
        hwriter x hx job a haction hcounts
      exact absurd ⟨call, client, envelope, hcall⟩ hregistered
    simp only [List.map_nil, List.sum_nil] at htotal
    omega

/-! ## Giving up -/

/-- The retry thread gave the request up, after it had written it again
`kMaxRetryCount` times. -/
def Dropped (e : ProcessRun P S) (client : Conn) (seq : UInt64) : Prop :=
  ∃ (e₁ e₂ : ProcessRun P S) (t : ClientThread) (job : ClientJob) (rounds : ℕ)
      (now : UInt64) (messages : List Envelope),
    Execution.Next e₁ (.execute t job (.scan client now) messages) e₂ ∧
    Execution.Later e₂ e ∧ job.task = .retry rounds ∧
    (e₁.state.pendingAcks client).lookup seq ≠ none ∧
    (e₂.state.pendingAcks client).lookup seq = none ∧
    tally (writes seq) (e₁.trace job) = kMaxRetryCount

theorem Dropped.mono {e e' : ProcessRun P S} {client : Conn} {seq : UInt64}
    (h : Dropped e client seq) (hlater : Execution.Later e e') :
    Dropped e' client seq := by
  obtain ⟨e₁, e₂, t, job, rounds, now, messages, hnext, hlater', hrest⟩ := h
  exact ⟨e₁, e₂, t, job, rounds, now, messages, hnext, hlater'.trans hlater,
    hrest⟩

/-- An entry is given up at the limit. -/
theorem retryCount_ge_of_scan {now : UInt64} {pending : PendingAck}
    (h : (pending.scan now).1 = none) :
    kMaxRetryCount ≤ pending.retryCount := by
  unfold PendingAck.scan at h
  split at h
  · cases h
  · split at h
    · next hlimit => exact hlimit
    · cases h

/-- All scans that found a request were made by one thread. -/
theorem scanned_le_tally (e : ProcessRun P S) {job call : ClientJob}
    {client : Conn} {seq : UInt64} {envelope : Envelope} {rounds : ℕ}
    (hcall : Registered e call client seq envelope) (hbegun : Begun e job)
    (hclient : job.client = client) (htask : job.task = .retry rounds) :
    e.scanned seq ≤ tally (scans seq) (e.trace job) := by
  have htotal : e.scanned seq ≤ ([job].map fun job =>
      tally (scans seq) (e.trace job)).sum := by
    apply ThreadPool.total_le_sum_tally
    intro x hx job' a haction hcounts
    have hmem : a ∈ e.trace job' := ThreadPool.mem_trace.mpr ⟨x, hx, haction⟩
    obtain ⟨command, answer⟩ := a
    cases command with
    | scan client' now =>
        obtain ⟨found, hfound, hrequest⟩ :=
          List.countP_pos_iff.mp (Nat.pos_of_ne_zero hcounts)
        obtain ⟨call', hcall'⟩ :=
          (booked e).given job' client' now answer hmem found hfound
        have hseq := hcall'.isRequest.mp hrequest
        rw [hseq] at hcall'
        obtain ⟨-, hsame, -⟩ := hcall.of_seq hcall'
        obtain ⟨τ, -, -, hclient', ⟨rounds', htask'⟩, -⟩ :=
          (e.lawful job').rule_of_mem hmem
        have heq := (e.retry_unique client).2 job' job rounds' rounds
          (begun_of_mem_trace e hmem) hbegun (by rw [hsame, hclient']) hclient
          htask' htask
        simp [heq]
    | _ => exact absurd rfl hcounts
  simpa using htotal

/-- A scan removes an entry only when it gives it up. -/
theorem dropped_of_scan {e e' : ProcessRun P S} {t : ClientThread}
    {job : ClientJob} {client : Conn} {now seq : UInt64}
    {messages : List Envelope} {pending : PendingAck}
    (hnext : Execution.Next e (.execute t job (.scan client now) messages) e')
    (hbefore : (e.state.pendingAcks client).lookup seq = some pending)
    (hafter : (e'.state.pendingAcks client).lookup seq = none) :
    Dropped e' client seq := by
  have hbooked := booked e
  obtain ⟨call, hcall⟩ := hbooked.registered client seq pending hbefore
  have hlimit : e.scanned seq = kMaxRetryCount := by
    have hscan : (pending.scan now).1 = none := by
      rw [ProcessStep.pendingAcks hnext.1] at hafter
      simpa [ProcessLabel.pendingAcks, hbefore] using hafter
    have hge := retryCount_ge_of_scan hscan
    rw [hbooked.counted client seq pending hbefore] at hge
    exact le_antisymm (hbooked.bounded seq) hge
  have hlawful : Lawful (ClientRule job)
      (⟨.scan client now, messages⟩ :: e.trace job) := by
    have hlawful := lawful e' job
    rw [trace, ThreadPool.trace_next_of_action hnext rfl] at hlawful
    exact hlawful
  obtain ⟨⟨hclient, ⟨rounds, htask⟩, hwritten⟩, -⟩ := hlawful
  have hstep : ProcessStep P S e.state
      (.execute t job (.scan client now) messages) e'.state := hnext.1
  obtain ⟨next, -, hrunning, -, -⟩ := hstep.execute_inv
  have hbegun : Begun e job := begun_of_running e hrunning
  have hle := scanned_le_tally e hcall hbegun hclient.symm htask
  have hge : tally (scans seq) (e.trace job) ≤ e.scanned seq :=
    ThreadPool.tally_trace_le_total e job
  refine ⟨e, e', t, job, rounds, now, messages, hnext, Execution.Later.refl _,
    htask, by simp [hbefore], hafter, ?_⟩
  rw [hwritten seq]
  omega

end ProcessRun

end ReliableDelivery
