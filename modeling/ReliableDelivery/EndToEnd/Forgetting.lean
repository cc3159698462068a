import ReliableDelivery.EndToEnd.ExactlyOnce
import ReliableDelivery.EndToEnd.Schedule

/-!
# When the client forgets a request

A registered request waits for its acknowledgement until its own call takes it
back, the retry thread gives it up, or an acknowledgement comes.  A positive
acknowledgement means that the ledger has a message for the request.  A negative
one ends the wait all the same, and then the message may be nowhere.
-/

namespace ReliableDelivery

open Decimal Redis TransitionSystem Program

variable {P : Platform} {S : Sessions}

namespace WorldRun

open ProcessRun (Registered Begun Dropped)

/-- The request waits for its acknowledgement. -/
def Waits (w : WorldRun P S) (conn : Conn) (seq : UInt64)
    (envelope : Envelope) : Prop :=
  ∃ pending, (w.client.state.pendingAcks conn).lookup seq = some pending ∧
    pending.envelope = envelope

/-- The request waits, or the ledger has a message for it, or it was given up. -/
def Cared (w : WorldRun P S) (conn : Conn) (seq : UInt64)
    (envelope : Envelope) : Prop :=
  Waits w conn seq envelope ∨ (∃ id, StoredFor w envelope id) ∨
    Dropped w.client conn seq

/-- The step does not end the wait for a request that is not in the ledger with
a negative acknowledgement. -/
def SparesUnstored (w : WorldRun P S) (l : WorldLabel) : Prop :=
  ∀ t job seq envelope ack,
    l = .client (.execute t job (.erase job.client seq) ()) →
    job.task = .handle envelope → envelope.ack? = some ack → ack.seq = seq →
    ack.ok = false →
    ∀ call request, Registered w.client call job.client seq request →
      Waits w job.client seq request → ∃ id, StoredFor w request id

section Steps

variable {w w' : WorldRun P S} {call : ClientJob} {conn : Conn} {seq : UInt64}
  {envelope : Envelope}

/-- What is pending under the number of a request is the request. -/
theorem waits_of_lookup (hcall : Registered w.client call conn seq envelope)
    {pending : PendingAck}
    (h : (w.client.state.pendingAcks conn).lookup seq = some pending) :
    Waits w conn seq envelope := by
  obtain ⟨call', hcall'⟩ :=
    (ProcessRun.booked w.client).registered conn seq pending h
  obtain ⟨-, -, henvelope⟩ := hcall.of_seq hcall'
  exact ⟨pending, h, henvelope.symm⟩

/-- An acknowledgement that the receiving thread handles was sent by the
server. -/
theorem accepted_of_handled {t : ClientThread} {job : ClientJob}
    {command : ClientCommand} {answer : command.Answer} {handled : Envelope}
    {ack : Ack}
    (hnext : Execution.Next w (.client (.execute t job command answer)) w')
    (htask : job.task = .handle handled) (hack : handled.ack? = some ack)
    (hok : ack.ok = true) : Accepted w job.client ack.seq := by
  have hstep : ProcessStep P S w.client.state (.execute t job command answer)
      w'.client.state := (client_next hnext).1
  obtain ⟨next, -, hrunning, -, -⟩ := hstep.execute_inv
  have hsent := w.conveyed.handled job handled
    (ProcessRun.begun_of_running w.client hrunning) htask
  exact ⟨handled, ack, hsent, Envelope.ack?_eq_some.mp hack, hok, rfl⟩

/-- Whoever takes the request off the map is its call, or the ledger has a message
for it. -/
theorem cared_of_erase {t : ClientThread} {job : ClientJob}
    (hspares : SparesUnstored w
      (.client (.execute t job (.erase conn seq) ())))
    (hnext : Execution.Next w (.client (.execute t job (.erase conn seq) ()))
      w')
    (hcall : Registered w.client call conn seq envelope)
    (hwaits : Waits w conn seq envelope) :
    (∃ id, StoredFor w envelope id) ∨
      ⟨.erase conn seq, ()⟩ ∈ w'.client.trace call := by
  have hmem : ⟨.erase conn seq, ()⟩ ∈ w'.client.trace job :=
    (ProcessRun.mem_trace_next (client_next hnext)).mpr (.inl ⟨t, rfl⟩)
  have hlawful : Lawful (ClientRule job)
      (⟨.erase conn seq, ()⟩ :: w.client.trace job) := by
    have hlawful := ProcessRun.lawful w'.client job
    rw [ProcessRun.trace,
      ThreadPool.trace_next_of_action (client_next hnext) rfl] at hlawful
    exact hlawful
  obtain ⟨⟨rfl, hrule⟩, -⟩ := hlawful
  rcases hrule with ⟨toUid, content, envelope', -, hregister, -⟩ |
    ⟨handled, ack, htask, hack, hseq⟩
  · have hregistered : Registered w.client job job.client seq envelope' :=
      hregister
    obtain ⟨rfl, -, -⟩ := hcall.of_seq hregistered
    exact .inr hmem
  · left
    cases hok : ack.ok with
    | true =>
        have haccepted := accepted_of_handled hnext htask hack hok
        rw [hseq] at haccepted
        exact haccepted.storedFor hcall
    | false =>
        exact hspares t job seq handled ack rfl htask hack hseq hok call
          envelope hcall hwaits

/-- A step of the client process that takes an entry off the map erases it, or
gives it up in a scan. -/
theorem waits_next {l : ProcessLabel}
    (hnext : Execution.Next w (.client l) w')
    (hcall : Registered w.client call conn seq envelope)
    (hwaits : Waits w conn seq envelope) :
    Waits w' conn seq envelope ∨ Dropped w'.client conn seq ∨
      ∃ t job, l = .execute t job (.erase conn seq) () := by
  have hcall' : Registered w'.client call conn seq envelope :=
    hcall.mono (client_later hnext.later)
  obtain ⟨pending, hpending, -⟩ := hwaits
  cases hafter : (w'.client.state.pendingAcks conn).lookup seq with
  | some pending' => exact .inl (waits_of_lookup hcall' hafter)
  | none =>
      right
      have hlookup : (l.pendingAcks conn
          (w.client.state.pendingAcks conn)).lookup seq = none := by
        rw [← ProcessStep.pendingAcks (client_next hnext).1]
        exact hafter
      unfold ProcessLabel.pendingAcks at hlookup
      split at hlookup
      · split at hlookup
        · rw [AList.lookup_insert_eq_none, hpending] at hlookup
          cases hlookup.2
        · rw [hpending] at hlookup
          cases hlookup
      · next t job conn' seq' answer =>
          split at hlookup
          · next hconn =>
              by_cases hseq : seq = seq'
              · subst hconn hseq
                exact .inr ⟨t, job, rfl⟩
              · rw [AList.lookup_erase_ne hseq, hpending] at hlookup
                cases hlookup
          · rw [hpending] at hlookup
            cases hlookup
      · next t job conn' now messages =>
          split at hlookup
          · next hconn =>
              subst hconn
              exact .inl (ProcessRun.dropped_of_scan (client_next hnext)
                hpending hafter)
          · rw [hpending] at hlookup
            cases hlookup
      · rw [hpending] at hlookup
        cases hlookup

/-- A request that was just registered waits. -/
theorem waits_of_register {t : ClientThread} {now : UInt64}
    (hnext : Execution.Next w
      (.client (.execute t call (.register conn seq envelope) now)) w') :
    Waits w' conn seq envelope := by
  refine ⟨{ envelope, lastSendMs := now, retryCount := 0 }, ?_, rfl⟩
  rw [ProcessStep.pendingAcks (client_next hnext).1]
  simp [ProcessLabel.pendingAcks]

/-- What holds of a registered request: it is cared for, or its call has taken
it back. -/
def Tracked (w : WorldRun P S) : Prop :=
  ∀ call conn seq envelope, Registered w.client call conn seq envelope →
    Cared w conn seq envelope ∨
      ⟨.erase conn seq, ()⟩ ∈ w.client.trace call

theorem Tracked.next {l : WorldLabel} (h : Tracked w)
    (hspares : SparesUnstored w l) (hnext : Execution.Next w l w') :
    Tracked w' := by
  intro call conn seq envelope hcall'
  cases l with
  | server l =>
      rw [client_stutter hnext] at hcall'
      rcases h call conn seq envelope hcall' with hcared | herased
      · left
        rcases hcared with ⟨pending, hwaits⟩ | ⟨id, hid⟩ | hdropped
        · left
          rw [Waits, client_stutter hnext]
          exact ⟨pending, hwaits⟩
        · exact .inr (.inl ⟨id, hid.mono hnext.later⟩)
        · exact .inr (.inr (hdropped.mono (client_later hnext.later)))
      · right
        rw [client_stutter hnext]
        exact herased
  | client l =>
      obtain ⟨now, hmem⟩ := hcall'
      rcases (ProcessRun.mem_trace_next (client_next hnext)).mp hmem with
        ⟨t, rfl⟩ | hmem
      · exact .inl (.inl (waits_of_register hnext))
      · have hcall : Registered w.client call conn seq envelope := ⟨now, hmem⟩
        rcases h call conn seq envelope hcall with hcared | herased
        · rcases hcared with hwaits | ⟨id, hid⟩ | hdropped
          · rcases waits_next hnext hcall hwaits with
              hwaits' | hdropped | ⟨t, job, rfl⟩
            · exact .inl (.inl hwaits')
            · exact .inl (.inr (.inr hdropped))
            · rcases cared_of_erase hspares hnext hcall hwaits with
                ⟨id, hid⟩ | herased
              · exact .inl (.inr (.inl ⟨id, hid.mono hnext.later⟩))
              · exact .inr herased
          · exact .inl (.inr (.inl ⟨id, hid.mono hnext.later⟩))
          · exact .inl (.inr (.inr
              (hdropped.mono (client_later hnext.later))))
        · exact .inr ((ThreadPool.trace_suffix
            (client_later hnext.later) call).mem herased)

end Steps

/-- If no step ends the wait for an unstored request with a negative
acknowledgement, every registered request is tracked. -/
theorem tracked (w : WorldRun P S)
    (h : ∀ w₁ w₂ l, Execution.Next w₁ l w₂ → Execution.Later w₂ w →
      SparesUnstored w₁ l) : Tracked w := by
  revert h
  apply Execution.induct (P := fun w : WorldRun P S =>
    (∀ w₁ w₂ l, Execution.Next w₁ l w₂ → Execution.Later w₂ w →
      SparesUnstored w₁ l) → Tracked w)
  · intro w hnil _ _ call conn seq envelope hcall
    obtain ⟨now, hmem⟩ := hcall
    obtain ⟨x, hx, -⟩ := ThreadPool.mem_trace.mp hmem
    simp only [client, Projection.onRun, hnil] at hx
    cases hx
  · intro w w' l ih hnext hspares
    have hbefore : Tracked w := by
      apply ih
      intro w₁ w₂ l' hnext' hlater
      exact hspares w₁ w₂ l' hnext' (hlater.trans hnext.later)
    exact hbefore.next (hspares w w' l hnext (Execution.Later.refl w')) hnext

end WorldRun

/-- A call that succeeded has not taken its request back. -/
theorem not_erased_of_returns {e : ProcessRun P S} {call : ClientJob}
    {toUid : UInt64} {content : Bytes}
    (htask : call.task = .send toUid content)
    (hreturns : ⟨.returns true, ()⟩ ∈ e.trace call) (conn : Conn)
    (seq : UInt64) : ⟨.erase conn seq, ()⟩ ∉ e.trace call := by
  intro herase
  obtain ⟨τ, hsuffix, -, hrule⟩ := (e.lawful call).rule_of_mem hreturns
  obtain ⟨seq₁, envelope₁, ⟨now₁, hregister₁⟩, hsent⟩ :=
    hrule rfl toUid content htask
  obtain ⟨τ', hsuffix', -, -, hrule'⟩ := (e.lawful call).rule_of_mem herase
  rcases hrule' with ⟨_, _, envelope₂, -, ⟨now₂, hregister₂⟩, hfailed⟩ |
    ⟨handled, ack, htask', -⟩
  · have hregistered₁ : e.Registered call call.client seq₁ envelope₁ :=
      ⟨now₁, hsuffix.mem hregister₁⟩
    have hregistered₂ : e.Registered call call.client seq envelope₂ :=
      ⟨now₂, hsuffix'.mem hregister₂⟩
    have htype : ∀ {seq envelope},
        e.Registered call call.client seq envelope →
        envelope.type = .chatReq := by
      intro seq envelope hregistered
      obtain ⟨-, -, _, _, _, _, _, -, -, rfl⟩ := hregistered.call
      rfl
    have heq := (e.lawful call).eq_of_mem
      (Q := fun a => ∃ client envelope sent, envelope.type = .chatReq ∧
        a = ⟨.sendEnvelope client envelope, sent⟩) ?_
      (hsuffix.mem hsent) (hsuffix'.mem hfailed)
      ⟨_, _, _, htype hregistered₁, rfl⟩ ⟨_, _, _, htype hregistered₂, rfl⟩
    · cases heq
    · rintro τ _ hsend ⟨client, envelope, sent, htype, rfl⟩ b hb
        ⟨client', envelope', sent', -, rfl⟩
      obtain ⟨-, hcases⟩ := hsend
      rcases hcases htype with ⟨-, -, hnone⟩ | ⟨⟨rounds, hretry⟩, -⟩
      · exact hnone client' envelope' sent' hb
      · rw [htask] at hretry
        cases hretry
  · rw [htask] at htask'
    cases htask'

open WorldRun in
/-- In every run in which no negative acknowledgement ends the wait for a
request for which the ledger has no message, a request whose call has succeeded
still waits for its acknowledgement, or the ledger has a message for it, or the
retry thread gave it up after `kMaxRetryCount` retransmissions.  If nobody else
sends in the name of the users, a message for it is one that the call gave rise
to. -/
theorem unstored_request_kept {w : WorldRun P S} {call : ClientJob}
    {toUid : UInt64} {content : Bytes}
    (hspares : ∀ w₁ w₂ l, Execution.Next w₁ l w₂ → Execution.Later w₂ w →
      SparesUnstored w₁ l)
    (htask : call.task = .send toUid content)
    (hreturns : ⟨.returns true, ()⟩ ∈ w.client.trace call) :
    ∃ conn seq envelope,
      ProcessRun.Registered w.client call conn seq envelope ∧
      Cared w conn seq envelope ∧
      (Unimpersonated w → ∀ id, StoredFor w envelope id → GivesRise w call id) := by
  obtain ⟨τ, hsuffix, -, hrule⟩ :=
    (ProcessRun.lawful w.client call).rule_of_mem hreturns
  obtain ⟨seq, envelope, ⟨now, hregister⟩, -⟩ := hrule rfl toUid content htask
  have hcall : ProcessRun.Registered w.client call call.client seq envelope :=
    ⟨now, hsuffix.mem hregister⟩
  refine ⟨call.client, seq, envelope, hcall, ?_, ?_⟩
  · rcases tracked w hspares call call.client seq envelope hcall with
      hcared | herased
    · exact hcared
    · exact absurd herased
        (not_erased_of_returns htask hreturns call.client seq)
  · intro hothers id hstored
    exact hstored.givesRise hcall hothers

/-- Handling this step ends no wait with a negative acknowledgement. -/
def WorldLabel.spares : WorldLabel → Bool
  | .client (.execute _ ⟨_, _, _, .handle envelope⟩ (.erase _ _) _) =>
      (envelope.ack?.getD {}).ok
  | _ => true

theorem sparesUnstored_of_spares {w : WorldRun P S} {l : WorldLabel}
    (h : l.spares = true) : WorldRun.SparesUnstored w l := by
  rintro t ⟨number, client, uid, task⟩ seq envelope ack rfl rfl hack - hok
  simp only [WorldLabel.spares, hack, Option.getD_some, hok] at h
  cases h

/-- The message is stored and acknowledged. -/
def acceptedSend : List WorldChoice :=
  clientLogin ++ clientSend ++ [.arrive 0] ++ (complete 0 20).map .server ++
    [.deliver 0] ++ clientCalls (.receiver 0) 1

theorem unstored_request_kept_acceptedSend :
    ∃ w : WorldRun wirePlatform oneClient,
      (w.client.state.pendingAcks 0).lookup 2 = none ∧
      ∃ conn seq envelope,
        ProcessRun.Registered w.client clientCall conn seq envelope ∧
        WorldRun.Cared w conn seq envelope ∧
        (WorldRun.Unimpersonated w → ∀ id, WorldRun.StoredFor w envelope id →
          WorldRun.GivesRise w clientCall id) := by
  obtain ⟨w, hstate, hhistory⟩ :=
    exists_worldRun wirePlatform oneClient acceptedSend
  have hspares : ((worldDriver wirePlatform oneClient).trace {}
      acceptedSend).all (fun x => x.2.spares) = true := by decide +kernel
  have hreturned : ((worldDriver wirePlatform oneClient).trace {}
      acceptedSend).any (fun x => x.2.succeeds clientCall) = true := by
    decide +kernel
  refine ⟨w, ?_, ?_⟩
  · have hpending : w.client.state.pendingAcks 0 =
        w.state.process.pendingAcks 0 := rfl
    rw [hpending, hstate]
    decide +kernel
  · obtain ⟨⟨v, l⟩, hmem, hsucceeds⟩ := List.any_eq_true.mp hreturned
    rw [← List.mem_reverse, ← hhistory] at hmem
    refine unstored_request_kept ?_ rfl (returns_of_succeeds hmem hsucceeds)
    intro w₁ w₂ l' hnext hlater
    have hmem' : (w₁.state, l') ∈ w.history :=
      hlater.mem_history hnext.mem_history
    rw [hhistory, List.mem_reverse] at hmem'
    exact sparesUnstored_of_spares (List.all_eq_true.mp hspares _ hmem')

/-- The store cannot be reached, and the client is told so. -/
def refusedSend : List WorldChoice :=
  clientLogin ++ clientSend ++ [.arrive 0] ++ (work 0 2).map .server ++
    [.redisDown (.worker 0)] ++ (List.replicate 2
      (.server (.call (.worker 0) 1000))) ++
    [.deliver 0] ++ clientCalls (.receiver 0) 1

def WorldLabel.isScan : WorldLabel → Bool
  | .client (.execute _ _ (.scan _ _) _) => true
  | _ => false

/-- An empty ledger has no message for any request. -/
theorem not_storedFor_of_empty {w : WorldRun P S} {envelope : Envelope}
    {id : UInt64}
    (h : fieldOf w.server.state.store.db (makeMessageKey 1)
      (literal "from_uid") = none) : ¬WorldRun.StoredFor w envelope id := by
  rintro ⟨request, m, -, hm, -⟩
  have hcount : 0 < w.server.ledger.count := by
    have hsome := (w.server.ledger.numbered id).mp (by rw [hm]; rfl)
    omega
  have hfirst : (w.server.ledger.find 1).isSome :=
    (w.server.ledger.numbered 1).mpr ⟨by decide, hcount⟩
  obtain ⟨m', hm'⟩ := Option.isSome_iff_exists.mp hfirst
  obtain ⟨hfrom, -⟩ := originStored w.server.represents hm'
  rw [h] at hfrom
  cases hfrom

/-- The client forgets a message that the server could not store. -/
theorem unstored_request_forgotten :
    ¬∀ (w : WorldRun wirePlatform oneClient) (call : ClientJob)
        (toUid : UInt64) (content : Bytes),
      call.task = .send toUid content →
      ⟨.returns true, ()⟩ ∈ w.client.trace call →
      ∃ conn seq envelope,
        ProcessRun.Registered w.client call conn seq envelope ∧
        WorldRun.Cared w conn seq envelope := by
  intro hkept
  obtain ⟨w, hstate, hhistory⟩ :=
    exists_worldRun wirePlatform oneClient refusedSend
  have hreturned : ((worldDriver wirePlatform oneClient).trace {}
      refusedSend).any (fun x => x.2.succeeds clientCall) = true := by
    decide +kernel
  have hscans : ((worldDriver wirePlatform oneClient).trace {}
      refusedSend).all (fun x => !x.2.isScan) = true := by decide +kernel
  obtain ⟨⟨v, l⟩, hmem, hsucceeds⟩ := List.any_eq_true.mp hreturned
  rw [← List.mem_reverse, ← hhistory] at hmem
  obtain ⟨conn, seq, envelope, hcall, hcared⟩ := hkept w clientCall 2
    (literal "hi") rfl (returns_of_succeeds hmem hsucceeds)
  obtain ⟨rfl, -⟩ := hcall.call
  rcases hcared with ⟨pending, hpending, -⟩ | ⟨id, hid⟩ | hdropped
  · have hempty : (w.state.process.pendingAcks 0).entries = [] := by
      rw [hstate]
      decide +kernel
    have hlookup : (w.state.process.pendingAcks 0).lookup seq =
        some pending := hpending
    rw [← Option.mem_def, AList.mem_lookup_iff, hempty] at hlookup
    cases hlookup
  · refine not_storedFor_of_empty ?_ hid
    have hserver : w.server.state = w.state.server := rfl
    rw [hserver, hstate]
    decide +kernel
  · obtain ⟨e₁, e₂, t, job, rounds, now, messages, hnext, hlater, -⟩ := hdropped
    obtain ⟨v', -, hmem'⟩ := WorldRun.mem_client_history.mp
      (hlater.mem_history hnext.mem_history)
    rw [hhistory, List.mem_reverse] at hmem'
    have hnot := List.all_eq_true.mp hscans _ hmem'
    simp [WorldLabel.isScan] at hnot

end ReliableDelivery
