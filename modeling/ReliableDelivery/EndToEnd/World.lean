import ReliableDelivery.Client.Retransmission
import ReliableDelivery.Server.Retention

/-!
# Client and server together

The client process, the server and the connections between them.  A connection
carries envelopes in both directions in the order in which they were written;
cutting the stream of bytes into envelopes is the matter of the codec.
Connections that do not belong to the process may send anything.  Nothing is said
about speed: an envelope may stay in a connection for ever.
-/

namespace ReliableDelivery

open Decimal MessageCodec TransitionSystem Program

/-- The envelopes that are on their way, oldest first. -/
abbrev Channels := Conn → List Envelope

def Channels.post (channels : Channels) :
    Option (Conn × Envelope) → Channels
  | none => channels
  | some (conn, envelope) =>
      Function.update channels conn (channels conn ++ [envelope])

structure WorldState where
  server : ServerState := {}
  process : ProcessState := {}
  toServer : Channels := fun _ => []
  toClient : Channels := fun _ => []

/-- What a step of the server puts on a connection. -/
def ServerLabel.transmits (P : Platform) (s : ServerState) :
    ServerLabel → Option (Conn × Envelope)
  | .execute _ _ (.sendEnvelope conn envelope) _ =>
      if s.connected conn = true ∧ encode P.serialize envelope ≠ [] then
        some (conn, envelope)
      else none
  | _ => none

/-- What a step of the client process puts on a connection. -/
def ProcessLabel.transmits : ProcessLabel → Option (Conn × Envelope)
  | .execute _ _ (.sendEnvelope client envelope) sent =>
      if sent = true then some (client, envelope) else none
  | _ => none

inductive WorldLabel where
  | server (l : ServerLabel)
  | client (l : ProcessLabel)

inductive WorldStep (P : Platform) (S : Sessions) (w : WorldState) :
    WorldLabel → WorldState → Prop where
  /-- The server moves, or receives from others. -/
  | serve (l : ServerLabel) (s : ServerState)
      (hstep : ServerStep P w.server l s)
      (hothers : ∀ conn envelope, l = .receive conn envelope →
        S conn = none) :
      WorldStep P S w (.server l)
        { w with server := s,
                 toClient := w.toClient.post (l.transmits P w.server) }
  /-- The server receives from a client of the process. -/
  | arrive (conn : Conn) (envelope : Envelope) (rest : List Envelope)
      (s : ServerState) (hown : S conn ≠ none)
      (hchannel : w.toServer conn = envelope :: rest)
      (hstep : ServerStep P w.server (.receive conn envelope) s) :
      WorldStep P S w (.server (.receive conn envelope))
        { w with server := s,
                 toServer := Function.update w.toServer conn rest }
  /-- The client process moves. -/
  | move (l : ProcessLabel) (s : ProcessState)
      (hstep : ProcessStep P S w.process l s)
      (hother : ∀ t job envelope, l = .begin t job →
        job.task ≠ .handle envelope) :
      WorldStep P S w (.client l)
        { w with process := s, toServer := w.toServer.post l.transmits }
  /-- The receiving thread of a client takes the next envelope. -/
  | deliver (t : ClientThread) (job : ClientJob) (envelope : Envelope)
      (rest : List Envelope) (s : ProcessState)
      (htask : job.task = .handle envelope)
      (hchannel : w.toClient job.client = envelope :: rest)
      (hstep : ProcessStep P S w.process (.begin t job) s) :
      WorldStep P S w (.client (.begin t job))
        { w with process := s,
                 toClient := Function.update w.toClient job.client rest }

/-- All runs of the client process with the server. -/
def world (P : Platform) (S : Sessions) :
    TransitionSystem WorldState WorldLabel where
  init w := w = {}
  step := WorldStep P S

abbrev WorldRun (P : Platform) (S : Sessions) := (world P S).Execution

variable {P : Platform} {S : Sessions}

/-! ## The parts -/

def serverPart (P : Platform) (S : Sessions) :
    Projection (world P S) (server P) where
  onState := WorldState.server
  onLabel
    | .server l => some l
    | .client _ => none
  init w hinit := by
    have hw : w = {} := hinit
    rw [hw]
    rfl
  step w l w' k hstep hl := by
    cases hstep with
    | serve l' s hstep hothers =>
        cases hl
        exact hstep
    | arrive conn envelope rest s hown hchannel hstep =>
        cases hl
        exact hstep
    | move l' s hstep hother => cases hl
    | deliver t job envelope rest s htask hchannel hstep => cases hl
  stutter w l w' hstep hl := by
    cases hstep with
    | serve l' s hstep hothers => cases hl
    | arrive conn envelope rest s hown hchannel hstep => cases hl
    | move l' s hstep hother => rfl
    | deliver t job envelope rest s htask hchannel hstep => rfl

def clientPart (P : Platform) (S : Sessions) :
    Projection (world P S) (process P S) where
  onState := WorldState.process
  onLabel
    | .server _ => none
    | .client l => some l
  init w hinit := by
    have hw : w = {} := hinit
    rw [hw]
    rfl
  step w l w' k hstep hl := by
    cases hstep with
    | serve l' s hstep hothers => cases hl
    | arrive conn envelope rest s hown hchannel hstep => cases hl
    | move l' s hstep hother =>
        cases hl
        exact hstep
    | deliver t job envelope rest s htask hchannel hstep =>
        cases hl
        exact hstep
  stutter w l w' hstep hl := by
    cases hstep with
    | serve l' s hstep hothers => rfl
    | arrive conn envelope rest s hown hchannel hstep => rfl
    | move l' s hstep hother => cases hl
    | deliver t job envelope rest s htask hchannel hstep => cases hl

/-! ## Steps -/

theorem Channels.mem_post {channels : Channels} {x : Option (Conn × Envelope)}
    {conn : Conn} {envelope : Envelope} :
    envelope ∈ channels.post x conn ↔
      envelope ∈ channels conn ∨ x = some (conn, envelope) := by
  unfold Channels.post
  split
  · simp
  · next conn' envelope' =>
      rw [Function.update_apply, Option.some.injEq, Prod.mk.injEq]
      split
      · next heq =>
          subst heq
          simp [eq_comm]
      · next hne =>
          simp [Ne.symm hne]

/-- Taking the first envelope leaves others only. -/
theorem Channels.mem_of_mem_rest {channels : Channels} {conn conn' : Conn}
    {envelope first : Envelope} {rest : List Envelope}
    (hchannel : channels conn = first :: rest)
    (hmem : envelope ∈ Function.update channels conn rest conn') :
    envelope ∈ channels conn' := by
  rw [Function.update_apply] at hmem
  split at hmem
  · next heq =>
      rw [heq, hchannel]
      exact List.mem_cons_of_mem _ hmem
  · exact hmem

theorem ProcessLabel.transmits_eq_some {l : ProcessLabel} {conn : Conn}
    {envelope : Envelope} (h : l.transmits = some (conn, envelope)) :
    ∃ t job, l = .execute t job (.sendEnvelope conn envelope) true := by
  unfold ProcessLabel.transmits at h
  split at h
  · next t job client envelope' sent =>
      split at h
      · next hsent =>
          cases h
          exact ⟨t, job, by rw [hsent]⟩
      · cases h
  · cases h

theorem ServerLabel.transmits_eq_some {s : ServerState} {l : ServerLabel}
    {conn : Conn} {envelope : Envelope}
    (h : l.transmits P s = some (conn, envelope)) :
    ∃ t job, l = .execute t job (.sendEnvelope conn envelope) () := by
  unfold ServerLabel.transmits at h
  split at h
  · next t job conn' envelope' answer =>
      split at h
      · cases h
        exact ⟨t, job, rfl⟩
      · cases h
  · cases h

section Steps

variable {w w' : WorldState} {l : WorldLabel} {conn : Conn}
  {envelope : Envelope}

/-- What is on its way to the server was there before, or has just been
written. -/
theorem WorldStep.toServer (h : WorldStep P S w l w')
    (hmem : envelope ∈ w'.toServer conn) :
    envelope ∈ w.toServer conn ∨
      ∃ t job,
        l = .client (.execute t job (.sendEnvelope conn envelope) true) := by
  cases h with
  | serve l' s hstep hothers => exact .inl hmem
  | arrive conn' envelope' rest s hown hchannel hstep =>
      exact .inl (Channels.mem_of_mem_rest hchannel hmem)
  | move l' s hstep hother =>
      rcases Channels.mem_post.mp hmem with hold | hnew
      · exact .inl hold
      · obtain ⟨t, job, rfl⟩ := ProcessLabel.transmits_eq_some hnew
        exact .inr ⟨t, job, rfl⟩
  | deliver t job envelope' rest s htask hchannel hstep => exact .inl hmem

/-- What is on its way to a client was there before, or has just been sent. -/
theorem WorldStep.toClient (h : WorldStep P S w l w')
    (hmem : envelope ∈ w'.toClient conn) :
    envelope ∈ w.toClient conn ∨
      ∃ t job,
        l = .server (.execute t job (.sendEnvelope conn envelope) ()) := by
  cases h with
  | serve l' s hstep hothers =>
      rcases Channels.mem_post.mp hmem with hold | hnew
      · exact .inl hold
      · obtain ⟨t, job, rfl⟩ := ServerLabel.transmits_eq_some hnew
        exact .inr ⟨t, job, rfl⟩
  | arrive conn' envelope' rest s hown hchannel hstep => exact .inl hmem
  | move l' s hstep hother => exact .inl hmem
  | deliver t job envelope' rest s htask hchannel hstep =>
      exact .inl (Channels.mem_of_mem_rest hchannel hmem)

theorem WorldStep.receive_inv
    (h : WorldStep P S w (.server (.receive conn envelope)) w') :
    envelope ∈ w.toServer conn ∨ S conn = none := by
  cases h with
  | serve _ s hstep hothers => exact .inr (hothers conn envelope rfl)
  | arrive _ _ rest s hown hchannel hstep =>
      left
      rw [hchannel]
      exact List.mem_cons_self

theorem WorldStep.handle_inv {t : ClientThread} {job : ClientJob}
    (h : WorldStep P S w (.client (.begin t job)) w')
    (htask : job.task = .handle envelope) :
    envelope ∈ w.toClient job.client := by
  cases h with
  | move _ s hstep hother => exact absurd htask (hother t job envelope rfl)
  | deliver _ _ envelope' rest s htask' hchannel hstep =>
      rw [htask, ClientTask.handle.injEq] at htask'
      rw [hchannel, htask']
      exact List.mem_cons_self

end Steps

namespace WorldRun

/-- What the server has done. -/
def server (w : WorldRun P S) : ServerRun P :=
  (serverPart P S).onRun w

/-- What the client process has done. -/
def client (w : WorldRun P S) : ProcessRun P S :=
  (clientPart P S).onRun w

section Later

variable {w w' : WorldRun P S}

theorem server_later (h : Execution.Later w w') :
    Execution.Later (server w) (server w') :=
  (serverPart P S).onRun_later h

theorem client_later (h : Execution.Later w w') :
    Execution.Later (client w) (client w') :=
  (clientPart P S).onRun_later h

theorem server_next {l : ServerLabel} (h : Execution.Next w (.server l) w') :
    Execution.Next (server w) l (server w') :=
  (serverPart P S).onRun_next h rfl

theorem client_next {l : ProcessLabel} (h : Execution.Next w (.client l) w') :
    Execution.Next (client w) l (client w') :=
  (clientPart P S).onRun_next h rfl

theorem server_stutter {l : ProcessLabel}
    (h : Execution.Next w (.client l) w') : server w' = server w :=
  (serverPart P S).onRun_stutter h rfl

theorem client_stutter {l : ServerLabel}
    (h : Execution.Next w (.server l) w') : client w' = client w :=
  (clientPart P S).onRun_stutter h rfl

end Later

/-- The steps of the client process are steps of the whole. -/
theorem mem_client_history {w : WorldRun P S} {s : ProcessState}
    {l : ProcessLabel} :
    (s, l) ∈ w.client.history ↔
      ∃ v, v.process = s ∧ (v, .client l) ∈ w.history := by
  simp only [client, Projection.onRun, Projection.onHistory,
    List.mem_filterMap, clientPart]
  constructor
  · rintro ⟨⟨v, l'⟩, hmem, heq⟩
    cases l' with
    | server l' => cases heq
    | client l' =>
        cases heq
        exact ⟨v, rfl, hmem⟩
  · rintro ⟨v, rfl, hmem⟩
    exact ⟨(v, .client l), hmem, rfl⟩

/-! ## What is on the connections -/

/-- The process has written the envelope to the connection. -/
def Wrote (w : WorldRun P S) (conn : Conn) (envelope : Envelope) : Prop :=
  ∃ job, ⟨.sendEnvelope conn envelope, true⟩ ∈ (client w).trace job

/-- The server has sent the envelope over the connection. -/
def Sent (w : WorldRun P S) (conn : Conn) (envelope : Envelope) : Prop :=
  ∃ job s, Did (server w) job (.sendEnvelope conn envelope) () s

theorem Wrote.mono {w w' : WorldRun P S} {conn : Conn} {envelope : Envelope}
    (h : Wrote w conn envelope) (hlater : Execution.Later w w') :
    Wrote w' conn envelope := by
  obtain ⟨job, hmem⟩ := h
  exact ⟨job, (ThreadPool.trace_suffix (client_later hlater) job).mem hmem⟩

theorem Sent.mono {w w' : WorldRun P S} {conn : Conn} {envelope : Envelope}
    (h : Sent w conn envelope) (hlater : Execution.Later w w') :
    Sent w' conn envelope := by
  obtain ⟨job, s, hdid⟩ := h
  exact ⟨job, s, hdid.mono (server_later hlater)⟩

/-- Nothing comes out of a connection that was not put in. -/
structure Conveyed (w : WorldRun P S) : Prop where
  toServer : ∀ conn, ∀ envelope ∈ w.state.toServer conn, Wrote w conn envelope
  toClient : ∀ conn, ∀ envelope ∈ w.state.toClient conn, Sent w conn envelope
  received : ∀ conn envelope, Received (server w) conn envelope →
    Wrote w conn envelope ∨ S conn = none
  handled : ∀ job envelope, ProcessRun.Begun (client w) job →
    job.task = .handle envelope → Sent w job.client envelope

theorem Conveyed.next {w w' : WorldRun P S} {l : WorldLabel} (h : Conveyed w)
    (hnext : Execution.Next w l w') : Conveyed w' where
  toServer conn envelope hmem := by
    rcases WorldStep.toServer hnext.1 hmem with hold | ⟨t, job, rfl⟩
    · exact (h.toServer conn envelope hold).mono hnext.later
    · refine ⟨job, (ProcessRun.mem_trace_next (client_next hnext)).mpr ?_⟩
      exact .inl ⟨t, rfl⟩
  toClient conn envelope hmem := by
    rcases WorldStep.toClient hnext.1 hmem with hold | ⟨t, job, rfl⟩
    · exact (h.toClient conn envelope hold).mono hnext.later
    · exact ⟨job, (server w).state, t, (server_next hnext).mem_history⟩
  received conn envelope hreceived := by
    have hold : Received (server w) conn envelope →
        Wrote w' conn envelope ∨ S conn = none := by
      intro hbefore
      rcases h.received conn envelope hbefore with hwrote | hother
      · exact .inl (hwrote.mono hnext.later)
      · exact .inr hother
    cases l with
    | client l =>
        rw [server_stutter hnext] at hreceived
        exact hold hreceived
    | server l =>
        obtain ⟨s, hmem⟩ := hreceived
        rw [(server_next hnext).2] at hmem
        rcases List.mem_cons.mp hmem with heq | hmem
        · obtain ⟨-, rfl⟩ := Prod.mk.inj heq
          rcases WorldStep.receive_inv hnext.1 with hchannel | hother
          · exact .inl ((h.toServer conn envelope hchannel).mono hnext.later)
          · exact .inr hother
        · exact hold ⟨s, hmem⟩
  handled job envelope hbegun htask := by
    cases l with
    | server l =>
        rw [client_stutter hnext] at hbegun
        exact (h.handled job envelope hbegun htask).mono hnext.later
    | client l =>
        obtain ⟨s, t, hmem⟩ := hbegun
        rw [(client_next hnext).2] at hmem
        rcases List.mem_cons.mp hmem with heq | hmem
        · obtain ⟨-, rfl⟩ := Prod.mk.inj heq
          have hchannel := WorldStep.handle_inv hnext.1 htask
          exact (h.toClient job.client envelope hchannel).mono hnext.later
        · exact (h.handled job envelope ⟨s, t, hmem⟩ htask).mono hnext.later

theorem conveyed (w : WorldRun P S) : Conveyed w := by
  apply Execution.induct (P := Conveyed)
  · intro w hnil hinit
    have hw : w.state = {} := hinit
    refine ⟨?_, ?_, ?_, ?_⟩
    · intro conn envelope hmem
      rw [hw] at hmem
      cases hmem
    · intro conn envelope hmem
      rw [hw] at hmem
      cases hmem
    · rintro conn envelope ⟨s, hmem⟩
      simp only [server, Projection.onRun, hnil] at hmem
      cases hmem
    · rintro job envelope ⟨s, t, hmem⟩
      simp only [client, Projection.onRun, hnil] at hmem
      cases hmem
  · intro w w' l h hnext
    exact h.next hnext

end WorldRun

end ReliableDelivery
