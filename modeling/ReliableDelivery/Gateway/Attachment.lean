import ReliableDelivery.Gateway.Traffic

/-!
# Attached sessions

What becomes of a session once its login has been answered.  The promise of the
login is settled with the first answer, `attachSession` goes on from there, and a
session that is through with it is in the table until its client is taken away or
the session closes.
-/

namespace ReliableDelivery

open Ecmascript TransitionSystem

namespace Session

variable {R : Runtime} {s s' : Session}

/-! ## The login -/

/-- A LOGIN_RESP settles the promise of the login, whatever else is read. -/
theorem handleEnvelopes_answered (now : ℕ) {envelopes : List EnvelopeObject}
    (h : ∃ x ∈ envelopes, x.type = 2) (s : Session) :
    ((handleEnvelopes R now envelopes).exec s).2.client.loginPending = false := by
  induction envelopes generalizing s with
  | nil => simp at h
  | cons x envelopes ih =>
      obtain ⟨frames, s₁, hexec, -⟩ := exec_handleEnvelope (R := R) now x s
      rw [handleEnvelopes, Js.exec_bind, hexec]
      dsimp only
      by_cases htype : x.type = 2
      · apply (within_handleEnvelopes now envelopes s₁).answered
        have hsettled : ∀ outcome, ((settleLogin outcome).exec s).2.client.loginPending =
            false := by
          intro outcome
          change (if s.client.loginPending then _ else s).client.loginPending = _
          split
          · rfl
          · next hanswered => exact Bool.not_eq_true _ ▸ hanswered
        rw [show s₁ = ((handleEnvelope R now x).exec s).2 by rw [hexec],
          handleEnvelope, if_pos htype, handleLoginResponse]
        split
        · exact hsettled _
        · exact hsettled _
        · exact hsettled _
      · obtain ⟨y, hy, hlogin⟩ := h
        rcases List.mem_cons.mp hy with rfl | hy
        · exact absurd hlogin htype
        · exact ih ⟨y, hy, hlogin⟩ s₁

theorem handleData_answered {now : ℕ} {chunk : Decimal.Bytes}
    {decoded : ImProtocol.Decoded}
    (hdecode : ImProtocol.decode R.protobufjs (s.client.recvBuffer ++ chunk) =
      .ok decoded)
    (h : ∃ x ∈ decoded.envelopes, x.type = 2) :
    ((handleData R now chunk).exec s).2.client.loginPending = false := by
  rw [handleData, Js.exec_bind, Js.exec_get]
  dsimp only
  rw [Js.exec_bind, exec_modifyClient, hdecode]
  dsimp only
  rw [Js.exec_bind, exec_modifyClient]
  exact handleEnvelopes_answered now h _

/-- The server is asked to log in nobody but the user of the session. -/
theorem Passes.asks {l : List Traffic} (h : s.Passes R l s') :
    ∀ x ∈ l.filterMap Traffic.envelope, x.type = 1 →
      x.payload = some (.loginReq s.uid) := by
  have hnone : ∀ {l : List Traffic}, (∀ x ∈ l, Traffic.envelope x = none) →
      ∀ x ∈ l.filterMap Traffic.envelope, x.type = 1 →
        x.payload = some (.loginReq s.uid) := by
    intro l hl x hx
    rw [List.filterMap_eq_nil_iff.mpr hl] at hx
    cases hx
  have hsilent : s'.written = s.written →
      ∀ x ∈ s.output s', Traffic.envelope x = none := by
    intro hwritten x hx
    rw [output, hwritten, List.drop_length, List.map_nil, List.append_nil,
      List.mem_map] at hx
    obtain ⟨frame, -, rfl⟩ := hx
    rfl
  cases h with
  | idle hidle hl =>
      apply hnone
      intro x hx
      rcases List.mem_append.mp hx with hx | hx
      · obtain ⟨message, rfl, -⟩ := hl x hx
        rfl
      · exact hsilent hidle.written x hx
  | login hbooks hl =>
      rcases hl with rfl | ⟨now, rfl⟩
      · exact hnone (by simp)
      · intro x hx _
        rw [show List.filterMap _ _ = [s.loginRequest now] from rfl,
          List.mem_singleton] at hx
        rw [hx]
        rfl
  | refuse hmessage hbooks hl =>
      rcases hl with rfl | ⟨reason, rfl⟩
      · exact hnone (by simp [Traffic.envelope])
      · exact hnone (by simp [Traffic.envelope])
  | forward hmessage hbooks =>
      intro x hx htype
      simp only [List.filterMap_cons, Traffic.envelope, List.filterMap_nil,
        List.mem_singleton] at hx
      rw [hx] at htype
      cases htype
  | acknowledge hmessage hseq hbooks hl =>
      rcases hl with rfl | ⟨now, rfl⟩
      · exact hnone (by simp [Traffic.envelope])
      · intro x hx htype
        simp only [List.filterMap_cons, Traffic.envelope, List.filterMap_nil,
          List.mem_singleton] at hx
        rw [hx] at htype
        cases htype
  | unknown hx hmessage hseq hbooks =>
      apply hnone
      intro y hy
      split at hy
      · rcases List.mem_pair.mp hy with rfl | rfl
        · rfl
        · rfl
      · rw [List.mem_singleton.mp hy]
        rfl
  | @receive s₁ _ now envelopes hbooks hsent hwritten hs' =>
      obtain ⟨-, -, hsame, -⟩ := handleEnvelopes_induct (R := R)
        (P := fun _ _ => True) now envelopes s₁ trivial
        fun _ _ _ _ _ _ _ _ => trivial
      apply hnone
      intro x hx
      rcases List.mem_append.mp hx with hx | hx
      · obtain ⟨envelope, -, rfl⟩ := List.mem_map.mp hx
        rfl
      · exact hsilent ((hs' ▸ hsame).trans hwritten) x hx

end Session

/-- Every LOGIN_REQ that a session has written names its user. -/
theorem loginReq_of_written {R : Runtime} (e : GatewayRun R) {n : ℕ}
    {s : Session} (hs : e.state.sessions n = some s) {x : EnvelopeObject}
    (hx : x ∈ s.written) (htype : x.type = 1) :
    x.payload = some (.loginReq s.uid) := by
  have hall := session_induct (R := R) (n := n)
    (P := fun past s => ∀ x ∈ (traffic R n past).filterMap Traffic.envelope,
      x.type = 1 → x.payload = some (.loginReq s.uid)) ?_ ?_ e hs
  · rw [← (outputs_traffic e hs).2] at hx
    exact hall x hx htype
  · intro past uid hnil x hx
    rw [hnil] at hx
    cases hx
  · intro g event past s s' ih honward hpasses x hx
    rw [traffic, List.filterMap_append, List.mem_append] at hx
    rw [honward.uid]
    rcases hx with hx | hx
    · exact ih x hx
    · exact hpasses.asks x hx

/-- When a LOGIN_RESP is among what a session reads, its login is answered. -/
theorem answered_of_next {R : Runtime} {e e' : GatewayRun R} {n now : ℕ}
    {chunk : Decimal.Bytes} (hnext : e.Next (.imData n now chunk) e') {s : Session}
    (hs : e.state.sessions n = some s) {decoded : ImProtocol.Decoded}
    (hdecode : ImProtocol.decode R.protobufjs (s.client.recvBuffer ++ chunk) =
      .ok decoded)
    (h : ∃ x ∈ decoded.envelopes, x.type = 2) :
    ∃ s', e'.state.sessions n = some s' ∧ s'.client.loginPending = false := by
  obtain ⟨s', hs', -, hcases⟩ := (effect_of_next hnext).own hs rfl
  rcases hcases with ⟨p, hcode, rfl⟩ | ⟨hcode, -⟩
  · cases hcode
    exact ⟨_, hs', Session.handleData_answered hdecode h⟩
  · cases hcode

/-- A session whose login has been answered does not wait for it any more. -/
theorem settled_of_run {R : Runtime} (e : GatewayRun R) {n : ℕ} {s : Session}
    (hs : e.state.sessions n = some s) : s.Settled := by
  refine session_induct (R := R) (n := n) (P := fun _ s => s.Settled) ?_ ?_ e hs
  · intro past uid _ hanswered
    cases hanswered
  · intro g event past s s' ih honward hpasses
    exact honward.settled ih

/-! ## The table -/

namespace GatewayState

/-- A session that is through with attaching is in the table as long as it has
its client and is open.  Once it has fired its close event it has no client, and
it is not open without its connection to the server. -/
structure Tabled (g : GatewayState) (n : ℕ) (s : Session) : Prop where
  listed : s.attach = .done → s.registered = true → s.isOpen = true →
    g.sessionsByUid s.uid = some n
  left : s.readyState = .closed → s.registered = false
  parted : s.socket = .closed → s.isOpen = false

variable {R : Runtime} {g g' : GatewayState} {event : GatewayEvent} {n m : ℕ}
  {s s' : Session}

theorem Tabled.works (h : g.Tabled n s) (hworks : s.Works s')
    (htable : s'.isOpen = true → g.sessionsByUid s.uid = some n →
      g'.sessionsByUid s.uid = some n) : g'.Tabled n s' where
  listed hdone hregistered hopen := by
    rw [hworks.uid]
    exact htable hopen (h.listed (hworks.finished hdone)
      (hworks.registered_of hregistered) (hworks.isOpen_of hopen))
  left hclosed := hworks.registered (h.left (hworks.shut hclosed))
  parted hclosed := by
    rcases hworks.parted hclosed with hbefore | hnow
    · exact hworks.closing (h.parted hbefore)
    · exact hnow

/-- A session that is put in. -/
theorem Tabled.online (h : g.Tabled n s) (hattach : s.attach = .resolved)
    (hopen : s.isOpen = true) (frame : BrowserFrame)
    (hin : g'.sessionsByUid s.uid = some n) :
    g'.Tabled n ((s.leaving (.resume n)).send frame) := by
  have hsame : ∀ s₁ : Session, (s₁.send frame).uid = s₁.uid ∧
      (s₁.send frame).readyState = s₁.readyState ∧
      (s₁.send frame).socket = s₁.socket := by
    intro s₁
    rw [Session.send]
    split
    · exact ⟨rfl, rfl, rfl⟩
    · exact ⟨rfl, rfl, rfl⟩
  obtain ⟨huid, hready, hsocket⟩ := hsame (s.leaving (.resume n))
  simp only [Session.leaving, hattach] at huid hready hsocket ⊢
  refine ⟨fun _ _ _ => ?_, fun hclosed => ?_, fun hclosed => ?_⟩
  · rw [huid]
    exact hin
  · have hready' : s.readyState = .open := of_decide_eq_true hopen
    rw [hready, hready'] at hclosed
    cases hclosed
  · rw [hsocket] at hclosed
    rw [h.parted hclosed] at hopen
    cases hopen

theorem Tabled.effect (h : ∀ n s, g.sessions n = some s → g.Tabled n s)
    (heffect : g.Effect R event g') (hcrashed : g'.crashed = false)
    (hs' : g'.sessions n = some s') : g'.Tabled n s' := by
  cases heffect with
  | attach uid =>
      have hput : (g.put g.nextSession { uid }).sessions n = some s' := hs'
      rw [sessions_put] at hput
      split at hput
      · cases hput
        exact ⟨nofun, nofun, nofun⟩
      · exact (h n s' hput).works (refl_of Session.Works s') fun _ => id
  | @code event m s p hm hs henabled hcode =>
      have hput : (g.put m (p.exec s).2).sessions n = some s' := hs'
      rw [sessions_put] at hput
      split at hput
      · next heq =>
          cases hput
          subst heq
          exact (h n s hs).works (Session.works_code hcode henabled) fun _ => id
      · exact (h n s' hput).works (refl_of Session.Works s') fun _ => id
  | @cleanup event m s hm hs henabled hcode hclosed =>
      have hput : (g.put m (s.leaving event).dropped).sessions n = some s' := hs'
      rw [sessions_put] at hput
      split at hput
      · cases hput
        have hout := Session.dropped_registered (s.leaving event)
        refine ⟨fun _ hregistered => ?_, fun _ => hout, fun _ => ?_⟩
        · rw [hout] at hregistered
          cases hregistered
        · exact (Session.onward_dropped _).closing hclosed
      · next hne =>
          refine (h n s' hput).works (refl_of Session.Works s') fun _ hin => ?_
          exact removed_byUid.mpr ⟨hin, fun heq => hne heq.2⟩
  | fail hs hreason => cases hcrashed
  | @join m s hs hattach hopen hold =>
      have hput : (g.put m ((s.leaving (.resume m)).send
        (.online s.uid m))).sessions n = some s' := hs'
      rw [sessions_put] at hput
      split at hput
      · next heq =>
          cases hput
          subst heq
          exact (h n s hs).online hattach hopen _ (Function.update_self ..)
      · next hne =>
          refine (h n s' hput).works (refl_of Session.Works s') fun _ hin => ?_
          have huid : s'.uid ≠ s.uid := by
            intro heq
            rw [heq] at hin
            exact hne (hold n hin)
          exact (Function.update_of_ne huid ..).trans hin
  | @replace m old s s₀ hs hattach hopen hold hne hs₀ =>
      have hput : ((g.put m ((s.leaving (.resume m)).send
        (.online s.uid m))).put old s₀.shut).sessions n = some s' := hs'
      rw [sessions_put, sessions_put] at hput
      split at hput
      · next heq =>
          cases hput
          subst heq
          refine (h n s₀ hs₀).works (Session.works_shut s₀) fun hopen' => ?_
          rw [Session.shut_isOpen] at hopen'
          cases hopen'
      · next hother =>
          split at hput
          · next heq =>
              cases hput
              subst heq
              exact (h n s hs).online hattach hopen _ (Function.update_self ..)
          · refine (h n s' hput).works (refl_of Session.Works s')
              fun _ hin => ?_
            have huid : s'.uid ≠ s.uid := by
              intro heq
              rw [heq, hold, Option.some.injEq] at hin
              exact hother hin.symm
            exact (Function.update_of_ne huid ..).trans
              (removed_byUid.mpr ⟨hin, fun heq => huid heq.1⟩)
  | stuck hs hattach hopen hold hne hs₀ => cases hcrashed

/-- The table grows only when a session goes on after its login. -/
theorem Effect.byUid {uid : ℕ} (h : g.Effect R event g')
    (hn : g'.sessionsByUid uid = some n) :
    g.sessionsByUid uid = some n ∨
      event = .resume n ∧ ∃ s, g.sessions n = some s ∧ s.uid = uid ∧
        s.attach = .resolved ∧ s.isOpen = true := by
  cases h with
  | attach uid => exact .inl hn
  | code hm hs henabled hcode => exact .inl hn
  | cleanup hm hs henabled hcode hclosed => exact .inl (removed_byUid.mp hn).1
  | fail hs hreason => exact .inl hn
  | join hs hattach hopen hold =>
      simp only [entered, Function.update_apply] at hn
      split at hn
      · next heq =>
          cases hn
          exact .inr ⟨rfl, _, hs, heq.symm, hattach, hopen⟩
      · exact .inl hn
  | replace hs hattach hopen hold hne hs₀ =>
      simp only [entered, Function.update_apply] at hn
      split at hn
      · next heq =>
          cases hn
          exact .inr ⟨rfl, _, hs, heq.symm, hattach, hopen⟩
      · exact .inl (removed_byUid.mp hn).1
  | stuck hs hattach hopen hold hne hs₀ => exact .inl (removed_byUid.mp hn).1

end GatewayState

/-- In every run of a gateway that has not crashed. -/
theorem tabled {R : Runtime} (e : GatewayRun R) (hcrashed : e.state.crashed = false)
    {n : ℕ} {s : Session} (hs : e.state.sessions n = some s) :
    e.state.Tabled n s := by
  revert s n
  revert hcrashed
  apply Execution.induct (P := fun e : GatewayRun R =>
    (Execution.state e).crashed = false → ∀ n s,
      (Execution.state e).sessions n = some s →
        GatewayState.Tabled (Execution.state e) n s)
  · intro e _ hinit _ n s hs
    rw [show Execution.state e = {} from hinit] at hs
    cases hs
  · intro e e' event ih hnext hcrashed n s hs
    exact GatewayState.Tabled.effect (ih hnext.1.1) (effect_of_next hnext)
      hcrashed hs

end ReliableDelivery
