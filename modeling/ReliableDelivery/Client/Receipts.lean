import ReliableDelivery.Client.Retransmission

/-!
# What a client writes, and what it has received

A client writes its login, chat requests, and acknowledgements.  An acknowledgement is
written for a push that is in the message queue by then, from which nothing is ever
taken.
-/

namespace ReliableDelivery

open Decimal EnvelopeFactory TransitionSystem Program Client

/-! ## The rule -/

/-- The job handles a push that is no history, and has put it into the queue. -/
def Confirms (job : ClientJob) (τ : ClientTrace) (envelope : Envelope) : Prop :=
  ∃ received push, job.task = .handle received ∧ received.type = .chatPush ∧
    received.chatPush? = some push ∧ push.history = false ∧
    envelope.payload = some (.ack ⟨push.msgId, received.seq, true, []⟩) ∧
    ⟨.pushMessage job.client received, ()⟩ ∈ τ

/-- What a job may write; the retry thread writes what its scans gave it. -/
inductive MayWrite (job : ClientJob) (τ : ClientTrace) (envelope : Envelope) : Prop
  | login (hpayload : envelope.payload = some (.loginReq { uid := job.uid }))
  | request (htype : envelope.type = .chatReq)
  | retry (now : UInt64) (messages : List Envelope)
      (hscan : ⟨.scan job.client now, messages⟩ ∈ τ) (hmem : envelope ∈ messages)
  | confirm (hconfirms : Confirms job τ envelope)

def WriteRule (job : ClientJob) (τ : ClientTrace) : ClientCommand → Prop
  | .sendEnvelope client envelope => client = job.client ∧ MayWrite job τ envelope
  | _ => True

section Code

variable {job : ClientJob} {τ : ClientTrace}

theorem writes_sendMessage (toUid : UInt64) (content : Bytes) :
    Follows (WriteRule job) (fun _ _ => True)
      (sendMessage job.client job.uid toUid content) τ := by
  refine follows_call.mpr ⟨trivial, fun stop => ?_⟩
  cases stop with
  | true => exact follows_done.mpr trivial
  | false =>
      refine follows_call.mpr ⟨trivial, fun loggedIn => ?_⟩
      cases loggedIn with
      | false => exact follows_done.mpr trivial
      | true =>
          refine follows_call.mpr ⟨trivial, fun seq => ?_⟩
          refine follows_call.mpr ⟨trivial, fun msgNo => ?_⟩
          refine follows_call.mpr ⟨trivial, fun now => ?_⟩
          refine follows_call.mpr ⟨trivial, fun stamp => ?_⟩
          refine follows_call.mpr ⟨trivial, fun registered => ?_⟩
          refine follows_call.mpr ⟨⟨rfl, .request rfl⟩, fun sent => ?_⟩
          cases sent with
          | true => exact follows_done.mpr trivial
          | false => exact follows_call.mpr ⟨trivial, fun _ => follows_done.mpr trivial⟩

theorem writes_resend {now : UInt64} {messages : List Envelope}
    (hscan : ⟨.scan job.client now, messages⟩ ∈ τ) {envelopes : List Envelope}
    (h : envelopes ⊆ messages) :
    Follows (WriteRule job) (fun _ _ => True) (resend job.client envelopes) τ := by
  induction envelopes generalizing τ with
  | nil => exact follows_done.mpr trivial
  | cons envelope envelopes ih =>
      refine follows_call.mpr ⟨trivial, fun stop => ?_⟩
      cases stop with
      | true => exact follows_done.mpr trivial
      | false =>
          have hlooked := List.mem_cons_of_mem ⟨.stopped job.client, false⟩ hscan
          refine follows_call.mpr ⟨⟨rfl, .retry now messages hlooked
            (h List.mem_cons_self)⟩, fun sent => ?_⟩
          cases sent with
          | true =>
              exact ih (List.mem_cons_of_mem _ hlooked)
                fun x hx => h (List.mem_cons_of_mem envelope hx)
          | false => exact follows_call.mpr ⟨trivial, fun _ => follows_done.mpr trivial⟩

theorem writes_retryLoop (rounds : ℕ) :
    Follows (WriteRule job) (fun _ _ => True) (retryLoop job.client rounds) τ := by
  induction rounds generalizing τ with
  | zero => exact follows_done.mpr trivial
  | succ rounds ih =>
      refine follows_call.mpr ⟨trivial, fun stop => ?_⟩
      cases stop with
      | true => exact follows_done.mpr trivial
      | false =>
          refine follows_call.mpr ⟨trivial, fun now => ?_⟩
          refine follows_call.mpr ⟨trivial, fun messages => ?_⟩
          apply Follows.bind (writes_resend List.mem_cons_self (List.Subset.refl _))
          intro goOn τ' _ _
          cases goOn with
          | true => exact ih
          | false => exact follows_done.mpr trivial

theorem writes_handleEnvelope {envelope : Envelope}
    (htask : job.task = .handle envelope) :
    Follows (WriteRule job) (fun _ _ => True)
      (handleEnvelope job.client envelope) τ := by
  unfold handleEnvelope
  split
  · unfold Client.handleAck
    split
    · exact follows_done.mpr trivial
    · exact follows_call.mpr ⟨trivial, fun _ => follows_done.mpr trivial⟩
  · next htype =>
      unfold handleChatPush
      split
      · exact follows_done.mpr trivial
      · next push hpush =>
          refine follows_call.mpr ⟨trivial, fun loggedIn => ?_⟩
          cases loggedIn with
          | false => exact follows_done.mpr trivial
          | true =>
              refine follows_call.mpr ⟨trivial, fun _ => ?_⟩
              simp only [done_bind]
              split
              · exact follows_done.mpr trivial
              · next hhistory =>
                  refine follows_call.mpr ⟨trivial, fun stamp => ?_⟩
                  refine follows_call.mpr ⟨⟨rfl, .confirm ⟨envelope, push, htask, htype,
                    hpush, ?_, rfl, by simp⟩⟩, fun _ => follows_done.mpr trivial⟩
                  exact Bool.eq_false_of_not_eq_true hhistory
  · unfold handleLoginResponse
    split
    · exact follows_call.mpr ⟨trivial, fun _ => follows_done.mpr trivial⟩
    · exact follows_call.mpr ⟨trivial, fun _ => follows_done.mpr trivial⟩
  · exact follows_done.mpr trivial

theorem writes_startClient :
    Follows (WriteRule job) (fun _ _ => True) (startClient job.client job.uid) τ := by
  refine follows_call.mpr ⟨trivial, fun connected => ?_⟩
  cases connected with
  | false => exact follows_done.mpr trivial
  | true =>
      refine follows_call.mpr ⟨trivial, fun _ => ?_⟩
      refine follows_call.mpr ⟨trivial, fun stamp => ?_⟩
      refine follows_call.mpr ⟨⟨rfl, .login rfl⟩, fun sent => ?_⟩
      cases sent with
      | false => exact follows_call.mpr ⟨trivial, fun _ => follows_done.mpr trivial⟩
      | true =>
          refine follows_call.mpr ⟨trivial, fun ok => ?_⟩
          cases ok with
          | false => exact follows_call.mpr ⟨trivial, fun _ => follows_done.mpr trivial⟩
          | true => exact follows_call.mpr ⟨trivial, fun _ => follows_done.mpr trivial⟩

theorem writes_code (job : ClientJob) :
    Follows (WriteRule job) (fun _ _ => True) job.code [] := by
  have hreturns : ∀ (ok : Bool) (τ : ClientTrace),
      Follows (WriteRule job) (fun _ _ => True)
        (perform (ClientCommand.returns ok)) τ := fun ok τ =>
    follows_call.mpr ⟨trivial, fun _ => follows_done.mpr trivial⟩
  unfold ClientJob.code
  split
  · exact Follows.bind writes_startClient fun ok τ _ _ => hreturns ok τ
  · exact follows_call.mpr ⟨trivial, fun _ => follows_done.mpr trivial⟩
  · next toUid content htask =>
      exact Follows.bind (writes_sendMessage toUid content) fun ok τ _ _ => hreturns ok τ
  · next envelope htask => exact writes_handleEnvelope htask
  · refine follows_call.mpr ⟨trivial, fun _ => ?_⟩
    exact follows_call.mpr ⟨trivial, fun _ => follows_done.mpr trivial⟩
  · next rounds htask => exact writes_retryLoop rounds

end Code

/-! ## The message queue -/

section Queue

variable {P : Platform} {S : Sessions} {s s' : ProcessState}

theorem ProcessState.messageQueue_modify (client client' : Conn)
    {change : ClientState → ClientState}
    (hchange : ∀ c, c.messageQueue <+: (change c).messageQueue) :
    (s.clients client').messageQueue <+:
      ((s.modify client change).clients client').messageQueue := by
  simp only [ProcessState.modify, Function.update_apply]
  split
  · next heq =>
      rw [heq]
      exact hchange _
  · exact List.prefix_refl _

/-- Nothing is taken out of the queue. -/
theorem ClientEffect.messageQueue {command : ClientCommand} {answer : command.Answer}
    (h : ClientEffect P s command answer s') (client : Conn) :
    (s.clients client).messageQueue <+: (s'.clients client).messageQueue := by
  have hsame : ∀ c : ClientState, c.messageQueue <+: c.messageQueue :=
    fun c => List.prefix_refl _
  cases h with
  | pushMessage client' envelope =>
      exact ProcessState.messageQueue_modify client' client
        fun c => List.prefix_append _ _
  | failPendingLogin client' =>
      apply ProcessState.messageQueue_modify client' client
      intro c
      split
      · exact hsame c
      · exact hsame c
  | startRetry client' =>
      apply ProcessState.messageQueue_modify client' client
      intro c
      split
      · exact hsame c
      · exact hsame c
  | setStop client' => exact ProcessState.messageQueue_modify client' client hsame
  | handleLogin client' ok => exact ProcessState.messageQueue_modify client' client hsame
  | register client' seq envelope now =>
      exact ProcessState.messageQueue_modify client' client hsame
  | erase client' seq => exact ProcessState.messageQueue_modify client' client hsame
  | scan client' now messages h =>
      exact ProcessState.messageQueue_modify client' client hsame
  | startReceiver client' => exact ProcessState.messageQueue_modify client' client hsame
  | _ => exact List.prefix_refl _

theorem ProcessStep.messageQueue {l : ProcessLabel} (h : ProcessStep P S s l s')
    (client : Conn) :
    (s.clients client).messageQueue <+: (s'.clients client).messageQueue := by
  cases h with
  | begin t job hsession hnumber hidle hready =>
      have hsame : ∀ c : ClientState, c.messageQueue <+: c.messageQueue :=
        fun c => List.prefix_refl _
      simp only [ProcessState.setRunning, ProcessState.taken]
      split
      · let s₁ : ProcessState := { s with nextJob := s.nextJob + 1 }
        exact ProcessState.messageQueue_modify (s := s₁) job.client client hsame
      · let s₁ : ProcessState := { s with nextJob := s.nextJob + 1 }
        exact ProcessState.messageQueue_modify (s := s₁) job.client client hsame
      · exact List.prefix_refl _
  | execute t job command next answer s'' hrunning heffect =>
      exact heffect.messageQueue client
  | finish t job hrunning => exact List.prefix_refl _

end Queue

/-! ## Runs -/

namespace ProcessRun

variable {P : Platform} {S : Sessions}

theorem lawful_writes (e : ProcessRun P S) (job : ClientJob) :
    Lawful (WriteRule job) (e.trace job) :=
  lawful_of_follows writes_code e job

/-- What was pushed is in the queue. -/
theorem queued (e : ProcessRun P S) {job : ClientJob} {client : Conn}
    {envelope : Envelope} (h : ⟨.pushMessage client envelope, ()⟩ ∈ e.trace job) :
    envelope ∈ (e.state.clients client).messageQueue := by
  revert h
  apply Execution.induct (P := fun e : ProcessRun P S =>
    ⟨.pushMessage client envelope, ()⟩ ∈ trace e job →
      envelope ∈ ((Execution.state e).clients client).messageQueue)
  · intro e hnil _ h
    rw [trace, ThreadPool.trace, hnil] at h
    cases h
  · intro e e' l ih hnext h
    have hstep : ProcessStep P S e.state l e'.state := hnext.1
    rcases (mem_trace_next hnext).mp h with ⟨t, rfl⟩ | hbefore
    · obtain ⟨next, s'', -, heffect, hstate⟩ := hstep.execute_inv
      cases heffect with
      | pushMessage _ _ =>
          rw [hstate]
          simp [ProcessState.setRunning, ProcessState.modify]
    · exact (hstep.messageQueue client).mem (ih hbefore)

/-- What the retry thread writes are chat requests. -/
theorem mayWrite_of_send (e : ProcessRun P S) {job : ClientJob} {client : Conn}
    {envelope : Envelope} {sent : Bool}
    (h : ⟨.sendEnvelope client envelope, sent⟩ ∈ e.trace job) :
    client = job.client ∧
      (envelope.payload = some (.loginReq { uid := job.uid }) ∨
        envelope.type = .chatReq ∨ Confirms job (e.trace job) envelope) := by
  obtain ⟨τ, hsuffix, -, hclient, hmay⟩ := (lawful_writes e job).rule_of_mem h
  refine ⟨hclient, ?_⟩
  cases hmay with
  | login hpayload => exact .inl hpayload
  | request htype => exact .inr (.inl htype)
  | retry now messages hscan hmem =>
      obtain ⟨call, hcall⟩ := (booked e).given job job.client now messages
        (hsuffix.mem hscan) envelope hmem
      obtain ⟨-, -, toUid, content, msgNo, at', stamp, -, -, heq⟩ := hcall.call
      right
      left
      rw [heq]
      rfl
  | confirm hconfirms =>
      obtain ⟨received, push, htask, htype, hpush, hhistory, hpayload, hpushed⟩ :=
        hconfirms
      exact .inr (.inr ⟨received, push, htask, htype, hpush, hhistory, hpayload,
        hsuffix.mem hpushed⟩)

end ProcessRun

end ReliableDelivery
