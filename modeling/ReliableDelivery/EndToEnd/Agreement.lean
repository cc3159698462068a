import ReliableDelivery.EndToEnd.Bridge
import ReliableDelivery.Server.Wakeup

/-!
# Agreement on a user's session

The server and the gateway both let the last one win, but the server by the order
of the logins and the gateway by the order of their answers.  A user who has two
sessions may therefore be left without a connection: the server removes the one
that came last while the gateway keeps an older session.  This module shows that
this is the only way for the two to disagree once everything has come to rest.
-/

namespace ReliableDelivery

open Decimal MessageCodec TransitionSystem

/-! ## Steps in order -/

/-- The connection was opened and has been closed from one side at least. -/
def ServerState.Lost (s : ServerState) (conn : Conn) : Prop :=
  s.phase conn ≠ none ∧ s.phase conn ≠ some .up

/-- The gateway maps the user to the session, which is open and whose connection
has not been closed. -/
def BridgeState.Serves (w : BridgeState) (uid n : ℕ) : Prop :=
  w.gateway.sessionsByUid uid = some n ∧
    (∃ s, w.gateway.sessions n = some s ∧ s.isOpen = true) ∧
    ¬w.server.Lost n

/-- The step takes no connection away from a user whom the gateway serves, and
the gateway begins to serve only users who have a connection.  Uids have 64
bits. -/
structure InOrder (w : BridgeState) (l : BridgeLabel) : Prop where
  exact : ∀ uid, l = .gateway (.attach uid) → uid < 2 ^ 64
  joined : ∀ n s, l = .gateway (.resume n) → w.gateway.sessions n = some s →
    s.attach = .resolved → s.isOpen = true → ¬w.server.Lost n →
      w.server.users.getConnByUid (UInt64.ofNat s.uid) ≠ none
  removed : ∀ t job conn,
    l = .server (.execute t job (.removeConnection conn) ()) →
      ∀ uid, w.server.users.getConnByUid (UInt64.ofNat uid) = some conn →
        ∀ n, ¬w.Serves uid n

variable {P : Platform} {R : Runtime} {others : Others}

section Steps

variable {w w' : BridgeState} {l : BridgeLabel} {n : ℕ} {envelope : Envelope}

/-- What the server has sent stays on its way, as far as the server goes. -/
theorem BridgeStep.toGateway_serve {l : ServerLabel}
    (h : BridgeStep P R others w (.server l) w')
    (hmem : envelope ∈ w.toGateway n ∨
      l.transmits P w.server = some (n, envelope)) :
    envelope ∈ w'.toGateway n := by
  cases h with
  | serve _ s hstep hreceive hconnect => exact Channels.mem_post.mpr hmem
  | arrive m session object envelope' s hs hobject hreads hstep =>
      rcases hmem with hmem | htransmits
      · exact hmem
      · cases htransmits

/-- What is on its way to the gateway stays so, or is read. -/
theorem BridgeStep.toGateway_move {event : GatewayEvent}
    (h : BridgeStep P R others w (.gateway event) w')
    (hmem : envelope ∈ w.toGateway n) :
    envelope ∈ w'.toGateway n ∨
      ∃ now chunk s decoded x, event = .imData n now chunk ∧
        w.gateway.sessions n = some s ∧
        ImProtocol.decode R.protobufjs (s.client.recvBuffer ++ chunk) =
          .ok decoded ∧
        x ∈ decoded.envelopes ∧ ReadAs x envelope := by
  cases h with
  | move _ g hstep hdata hown => exact .inl hmem
  | deliver m now chunk s envelopes rest g hs hchannel hyields hstep =>
      by_cases hne : n = m
      · subst hne
        rw [hchannel, List.mem_append] at hmem
        rcases hmem with hread | hmem
        · right
          unfold Yields at hyields
          split at hyields
          · next decoded hdecode =>
              obtain ⟨i, hi, rfl⟩ := List.getElem_of_mem hread
              have hi' : i < decoded.envelopes.length :=
                hyields.length_eq ▸ hi
              exact ⟨now, chunk, s, decoded, decoded.envelopes[i], rfl, hs,
                hdecode, List.getElem_mem hi', hyields.get hi' hi⟩
          · rw [hyields] at hread
            cases hread
        · left
          simp only [Function.update_self]
          exact hmem
      · left
        simp only [Function.update_of_ne hne]
        exact hmem

/-- A connection is lost for good. -/
theorem lost_of_step {s s' : ServerState} {l : ServerLabel}
    (hstep : ServerStep P s l s') (h : s.Lost n) : s'.Lost n := by
  rcases hstep.phase n with hsame | ⟨-, hnone⟩ | ⟨-, hopened, hdown⟩
  · rw [ServerState.Lost, hsame]
    exact h
  · exact absurd hnone h.1
  · exact ⟨hopened, hdown⟩

/-- A login that is confirmed over a connection that stands is on its way. -/
theorem transmits_of_confirms {s s' : ServerState} {l : ServerLabel}
    (hstep : ServerStep P s l s') (hconfirms : l.confirms n = true)
    (hup : s'.phase n = some .up) :
    ∃ envelope, envelope.type = .loginResp ∧
      l.transmits P s = some (n, envelope) := by
  unfold ServerLabel.confirms at hconfirms
  split at hconfirms
  · next t job conn envelope answer =>
      rw [decide_eq_true_eq] at hconfirms
      obtain ⟨rfl, hlogin⟩ := hconfirms
      have hlogin : envelope.type = .loginResp :=
        (of_decide_eq_true hlogin).1
      refine ⟨envelope, hlogin, ?_⟩
      obtain ⟨next, s'', -, heffect, rfl⟩ := hstep.execute_inv
      cases heffect
      simp only [ServerState.setRunning, ServerState.sendEnvelope,
        ServerState.shutdown] at hup
      split at hup
      · split at hup
        · have hclosing : Function.update s.phase conn (some .closing) conn =
              some .up := hup
          rw [Function.update_self] at hclosing
          cases hclosing
        · next hdown => exact absurd hup hdown
      · next hencodes =>
          exact if_pos ⟨connected_iff.mpr hup, hencodes⟩
  · cases hconfirms

end Steps

namespace BridgeRun

variable {w w' : BridgeRun P R others} {n : ℕ} {s : Session}

/-! ## Logins -/

/-- What the server has received on a connection of the gateway was written by its
session. -/
theorem written_of_received (w : BridgeRun P R others) (hown : ¬others n)
    {envelope : Envelope} (h : Received (server w) n envelope) :
    ∃ s, w.state.gateway.sessions n = some s ∧
      ∃ object ∈ s.written, Reads object envelope := by
  revert h
  apply Execution.induct (P := fun w : BridgeRun P R others =>
    Received (server w) n envelope →
      ∃ s, (Execution.state w).gateway.sessions n = some s ∧
        ∃ object ∈ s.written, Reads object envelope)
  · rintro w hnil hinit ⟨s, hmem⟩
    simp only [server, Projection.onRun, hnil] at hmem
    cases hmem
  · intro w w' l ih hnext h
    have hold : Received (server w) n envelope →
        ∃ s, w'.state.gateway.sessions n = some s ∧
          ∃ object ∈ s.written, Reads object envelope := by
      intro hbefore
      obtain ⟨s, hs, object, hobject, hreads⟩ := ih hbefore
      obtain ⟨s', hs', honward⟩ := session_next hnext hs
      exact ⟨s', hs', object, honward.outputs.2.mem hobject, hreads⟩
    cases l with
    | gateway event =>
        rw [server_stutter hnext] at h
        exact hold h
    | server l =>
        obtain ⟨s, hmem⟩ := h
        rw [(server_next hnext).2] at hmem
        rcases List.mem_cons.mp hmem with heq | hmem
        · obtain ⟨-, rfl⟩ := Prod.mk.inj heq
          have hstep : BridgeStep P R others w.state (.server (.receive n envelope))
              w'.state := hnext.1
          generalize w'.state = v at hstep
          cases hstep with
          | serve _ s hstep hreceive hconnect =>
              exact absurd (hreceive n envelope rfl) hown
          | arrive _ s object _ s' hs hobject hreads hstep =>
              exact ⟨s, hs, object, List.mem_of_getElem? hobject, hreads⟩
        · exact hold ⟨s, hmem⟩

/-- A session logs in as its own user. -/
theorem session_of_login (w : BridgeRun P R others) (hown : ¬others n)
    {envelope : Envelope} (h : Received (server w) n envelope)
    (htype : envelope.type = .loginReq) :
    ∃ s, w.state.gateway.sessions n = some s ∧
      (s.uid < 2 ^ 64 → envelope.loginUid = UInt64.ofNat s.uid) := by
  obtain ⟨s, hs, object, hobject, hnumber, hpayload⟩ := written_of_received w hown h
  rw [htype] at hnumber
  refine ⟨s, hs, fun hlt => ?_⟩
  have hasks := loginReq_of_written (gateway w) hs hobject hnumber.symm
  rw [Envelope.loginUid, Envelope.loginReq?, hpayload s.uid hasks hlt]
  rfl

theorem session_of_bound (w : BridgeRun P R others) (hown : ¬others n)
    {uid : UInt64}
    (hbound : w.state.server.users.getConnByUid uid = some n) :
    ∃ s, w.state.gateway.sessions n = some s ∧
      (s.uid < 2 ^ 64 → uid = UInt64.ofNat s.uid) := by
  obtain ⟨envelope, hreceived, htype, rfl⟩ := login_of_bound (server w) hbound
  exact session_of_login w hown hreceived htype

theorem uid_lt (w : BridgeRun P R others)
    (horder : ∀ x ∈ w.history, InOrder x.1 x.2)
    (hs : w.state.gateway.sessions n = some s) : s.uid < 2 ^ 64 := by
  revert horder s
  apply Execution.induct (P := fun w : BridgeRun P R others => ∀ {s},
    (∀ x ∈ Execution.history w, InOrder x.1 x.2) →
      (Execution.state w).gateway.sessions n = some s → s.uid < 2 ^ 64)
  · intro w _ hinit s _ hs
    rw [show Execution.state w = {} from hinit] at hs
    cases hs
  · intro w w' l ih hnext s' horder hs'
    have hbefore : ∀ x ∈ w.history, InOrder x.1 x.2 :=
      fun x hx => horder x (hnext.later.mem_history hx)
    cases hs : w.state.gateway.sessions n with
    | some s =>
        obtain ⟨s₁, hs₁, honward⟩ := session_next hnext hs
        cases hs₁.symm.trans hs'
        rw [honward.uid]
        exact ih hbefore hs
    | none =>
        cases l with
        | server l =>
            have hsame : w'.state.gateway = w.state.gateway :=
              congrArg Execution.state (gateway_stutter hnext)
            rw [hsame, hs] at hs'
            cases hs'
        | gateway event =>
            obtain ⟨uid, rfl, rfl⟩ :=
              attached_of_next (gateway_next hnext) hs hs'
            exact (horder _ hnext.mem_history).exact uid rfl

/-! ## Answers -/

/-- The login of the session has been answered, or the answer is on its way. -/
def Heard (w : BridgeState) (n : ℕ) : Prop :=
  Confirming w.server n ∨
    (∃ envelope ∈ w.toGateway n, envelope.type = .loginResp) ∨
    ∃ s, w.gateway.sessions n = some s ∧ s.client.loginPending = false

theorem Heard.move {event : GatewayEvent} (h : Heard w.state n)
    (hnext : Execution.Next w (.gateway event) w') : Heard w'.state n := by
  have hsame : w'.state.server = w.state.server :=
    congrArg Execution.state (server_stutter hnext)
  rcases h with hconfirming | ⟨envelope, hmem, htype⟩ | ⟨s, hs, hanswered⟩
  · left
    rw [hsame]
    exact hconfirming
  · right
    rcases BridgeStep.toGateway_move hnext.1 hmem with
      hstill | ⟨now, chunk, s, decoded, x, rfl, hs, hdecode, hx, hnumber, -⟩
    · exact .inl ⟨envelope, hstill, htype⟩
    · rw [htype] at hnumber
      exact .inr (answered_of_next (gateway_next hnext) hs hdecode
        ⟨x, hx, hnumber⟩)
  · obtain ⟨s', hs', honward⟩ := session_next hnext hs
    exact .inr (.inr ⟨s', hs', honward.answered hanswered⟩)

theorem Heard.serve {l : ServerLabel} (h : Heard w.state n)
    (hnext : Execution.Next w (.server l) w')
    (hup : w'.state.server.phase n = some .up) : Heard w'.state n := by
  have hstep : ServerStep P w.state.server l w'.state.server :=
    (server_next hnext).1
  rcases h with hconfirming | ⟨envelope, hmem, htype⟩ | ⟨s, hs, hanswered⟩
  · rcases hconfirming.goes hstep with hconfirms | hgoes
    · obtain ⟨envelope, htype, htransmits⟩ :=
        transmits_of_confirms hstep hconfirms hup
      exact .inr (.inl ⟨envelope,
        BridgeStep.toGateway_serve hnext.1 (.inr htransmits), htype⟩)
    · exact .inl hgoes
  · exact .inr (.inl ⟨envelope,
      BridgeStep.toGateway_serve hnext.1 (.inl hmem), htype⟩)
  · obtain ⟨s', hs', honward⟩ := session_next hnext hs
    exact .inr (.inr ⟨s', hs', honward.answered hanswered⟩)

/-- Over a connection that stands, a session hears of its login. -/
theorem heard (w : BridgeRun P R others) {uid : UInt64}
    (hbound : w.state.server.users.getConnByUid uid = some n)
    (hup : w.state.server.phase n = some .up) : Heard w.state n := by
  revert hbound hup
  apply Execution.induct (P := fun w : BridgeRun P R others =>
    (Execution.state w).server.users.getConnByUid uid = some n →
      (Execution.state w).server.phase n = some .up →
        Heard (Execution.state w) n)
  · intro w _ hinit hbound _
    rw [show Execution.state w = {} from hinit] at hbound
    cases hbound
  · intro w w' l ih hnext hbound hup
    cases l with
    | gateway event =>
        have hsame : w'.state.server = w.state.server :=
          congrArg Execution.state (server_stutter hnext)
        rw [hsame] at hbound hup
        exact (ih hbound hup).move hnext
    | server l =>
        have hstep : ServerStep P w.state.server l w'.state.server :=
          (server_next hnext).1
        rcases hstep.bound (ServerRun.users_consistent (server w)) hbound with
          hold | ⟨t, job, rfl⟩
        · have hopened : w.state.server.phase n ≠ none :=
            phase_ne_none_of_bound (server w) hold
          rcases hstep.phase n with hsame | ⟨-, hnone⟩ | ⟨-, -, hdown⟩
          · exact (ih hold (hsame ▸ hup)).serve hnext hup
          · exact absurd hnone hopened
          · exact absurd hup hdown
        · exact .inl (confirming_of_bindUser (server_next hnext))

end BridgeRun

namespace BridgeRun

variable {w w' : BridgeRun P R nobodyElse} {n : ℕ} {s : Session}

/-! ## Users who are served -/

/-- As long as the steps are in order, the server has a connection for every user
whom the gateway serves. -/
theorem bound_of_serves (w : BridgeRun P R nobodyElse)
    (horder : ∀ x ∈ w.history, InOrder x.1 x.2) {uid : ℕ}
    (hserves : w.state.Serves uid n) :
    w.state.server.users.getConnByUid (UInt64.ofNat uid) ≠ none := by
  revert horder hserves
  apply Execution.induct (P := fun w : BridgeRun P R nobodyElse =>
    (∀ x ∈ Execution.history w, InOrder x.1 x.2) →
      BridgeState.Serves (Execution.state w) uid n →
        (Execution.state w).server.users.getConnByUid (UInt64.ofNat uid) ≠ none)
  · rintro w _ hinit _ ⟨hin, -⟩
    rw [show Execution.state w = {} from hinit] at hin
    cases hin
  · rintro w w' l ih hnext horder ⟨hin, ⟨s', hs', hopen⟩, hstands⟩
    have hbefore : ∀ x ∈ w.history, InOrder x.1 x.2 :=
      fun x hx => horder x (hnext.later.mem_history hx)
    have hnow : InOrder w.state l := horder _ hnext.mem_history
    cases l with
    | gateway event =>
        have hsame : w'.state.server = w.state.server :=
          congrArg Execution.state (server_stutter hnext)
        rw [hsame] at hstands ⊢
        rcases (effect_of_next (gateway_next hnext)).byUid hin with
          hold | ⟨rfl, s, hs, rfl, hattach, hopen⟩
        · obtain ⟨s, hs, -⟩ := (registry (gateway w)).stored uid n hold
          obtain ⟨s₁, hs₁, honward⟩ := session_next hnext hs
          cases hs₁.symm.trans hs'
          exact ih hbefore ⟨hold, ⟨s, hs, honward.isOpen_of hopen⟩, hstands⟩
        · exact hnow.joined n s rfl hs hattach hopen hstands
    | server l =>
        have hstep : ServerStep P w.state.server l w'.state.server :=
          (server_next hnext).1
        have hsame : w'.state.gateway = w.state.gateway :=
          congrArg Execution.state (gateway_stutter hnext)
        rw [hsame] at hin hs'
        have hserves : w.state.Serves uid n :=
          ⟨hin, ⟨s', hs', hopen⟩, fun hlost => hstands (lost_of_step hstep hlost)⟩
        obtain ⟨conn, hbound⟩ :=
          Option.ne_none_iff_exists'.mp (ih hbefore hserves)
        rcases hstep.unbound (ServerRun.users_consistent (server w)) hbound with
          hkept | ⟨t, job, rfl⟩ | ⟨t, job, uid', answer, hne, rfl⟩
        · exact hkept
        · exact absurd hserves (hnow.removed t job conn rfl uid hbound n)
        · obtain ⟨envelope, hhandles, htype, rfl, -, hrunning⟩ :=
            running_of_bindUser (server_next hnext)
          have hreceived : Received (server w) conn envelope :=
            ServerRun.received (server w) hhandles (.inr ⟨t, _, hrunning⟩)
          obtain ⟨s, hs, huid⟩ := session_of_bound w id hbound
          obtain ⟨s₁, hs₁, hlogin⟩ := session_of_login w id hreceived htype
          cases hs.symm.trans hs₁
          have hlt := uid_lt w hbefore hs
          exact absurd ((hlogin hlt).trans (huid hlt).symm) hne

/-! ## Agreement -/

/-- In a quiescent state, the connection of a user stands. -/
theorem up_of_bound (w : BridgeRun P R nobodyElse) (hquiescent : w.state.Quiescent)
    {uid : UInt64} (hbound : w.state.server.users.getConnByUid uid = some n)
    (hs : w.state.gateway.sessions n = some s) :
    s.socket = .open ∧ w.state.server.phase n = some .up ∧
      w.state.toGateway n = [] := by
  rcases hquiescent.connections n s hs with
    ⟨hsocket, hup, hread, -⟩ | ⟨-, hnone | hgone⟩
  · exact ⟨hsocket, hup, hread⟩
  · exact absurd hnone (phase_ne_none_of_bound (server w) hbound)
  · have hgone : (server w).state.phase n = some .gone := hgone
    exact absurd hbound (unbound_of_gone (server w) hquiescent.server hgone uid)

/-- In a quiescent state, the session whose connection the server has for a user
is the one in the table of the gateway. -/
theorem listed_of_bound (w : BridgeRun P R nobodyElse) (hquiescent : w.state.Quiescent)
    {uid : UInt64} (hbound : w.state.server.users.getConnByUid uid = some n)
    (hs : w.state.gateway.sessions n = some s) :
    w.state.gateway.sessionsByUid s.uid = some n := by
  obtain ⟨hsocket, hup, hread⟩ := up_of_bound w hquiescent hbound hs
  have hanswered : s.client.loginPending = false := by
    rcases heard w hbound hup with
      ⟨t, job, code, hrunning, -⟩ | ⟨envelope, hmem, -⟩ | ⟨s', hs', hanswered⟩
    · rw [hquiescent.server.2 t] at hrunning
      cases hrunning
    · rw [hread] at hmem
      cases hmem
    · cases hs'.symm.trans hs
      exact hanswered
  have hdone : s.attach = .done := by
    have hawaits := settled_of_run (gateway w) hs hanswered
    have hresumed := hquiescent.attached n s hs
    by_contra hnot
    simp [Session.enabled, hawaits, hnot] at hresumed
  have htabled := tabled (gateway w) hquiescent.alive hs
  have hcoherent := (registry (gateway w)).coherent n s hs
  have hregistered : s.registered = true := by
    by_contra hout
    have hnone := hcoherent.1 (Bool.not_eq_true _ ▸ hout)
    rcases (hcoherent.2 hnone).2 with hdown | hdown
    · cases hsocket.symm.trans hdown
    · cases hsocket.symm.trans hdown
  have hopen : s.isOpen = true := by
    rcases hquiescent.webSockets n s hs with hopen | hclosed
    · exact decide_eq_true hopen
    · rw [htabled.left hclosed] at hregistered
      cases hregistered
  exact htabled.listed hdone hregistered hopen

/-- Gateway and server agree on the session of a user.  In every run whose steps
are all in order, in every quiescent state, if the gateway maps a user to an open
session, then the server maps this user to the connection of the session. -/
theorem sessions_agree (w : BridgeRun P R nobodyElse)
    (horder : ∀ x ∈ w.history, InOrder x.1 x.2)
    (hquiescent : w.state.Quiescent) {uid : ℕ}
    (hin : w.state.gateway.sessionsByUid uid = some n)
    (hs : w.state.gateway.sessions n = some s) (hopen : s.isOpen = true) :
    w.state.server.users.getConnByUid (UInt64.ofNat uid) = some n := by
  have hstands : ¬w.state.server.Lost n := by
    rintro ⟨-, hdown⟩
    rcases hquiescent.connections n s hs with ⟨-, hup, -⟩ | ⟨hclosed, -⟩
    · exact hdown hup
    · rw [(tabled (gateway w) hquiescent.alive hs).parted hclosed] at hopen
      cases hopen
  obtain ⟨m, hbound⟩ := Option.ne_none_iff_exists'.mp
    (bound_of_serves w horder ⟨hin, ⟨s, hs, hopen⟩, hstands⟩)
  obtain ⟨s', hs', huid⟩ := session_of_bound w id hbound
  have hlisted := listed_of_bound w hquiescent hbound hs'
  obtain ⟨s₁, hs₁, rfl⟩ := (registry (gateway w)).stored uid n hin
  have hlt := uid_lt w horder hs₁
  have hlt' := uid_lt w horder hs'
  have hsame : s₁.uid = s'.uid := by
    have hnat := congrArg UInt64.toNat (huid hlt')
    rwa [UInt64.toNat_ofNat_of_lt' hlt, UInt64.toNat_ofNat_of_lt' hlt'] at hnat
  rw [hsame, hlisted, Option.some.injEq] at hin
  rw [hbound, hin]

end BridgeRun

end ReliableDelivery
