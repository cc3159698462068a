import ReliableDelivery.EndToEnd.Agreement
import ReliableDelivery.Gateway.Exceptions
import ReliableDelivery.Server.Schedule

/-!
# Scheduled runs of gateway and server

A schedule for the gateway, the server and the connections between them, with one
tab and with two tabs of a user.
-/

namespace ReliableDelivery

open Decimal MessageCodec TransitionSystem

inductive BridgeChoice where
  | server (choice : Choice)
  | notifyClosed (n : ℕ)
  | arrive (n : ℕ) (envelope : Envelope)
  | gateway (event : GatewayEvent)
  | deliver (n now : ℕ)

namespace BridgeState

/-- The step of the server that a choice leads to, when it receives nothing. -/
def serve (P : Platform) (w : BridgeState) (choice : Choice) :
    Option (BridgeLabel × BridgeState) :=
  match w.server.advance P choice with
  | some (.receive _ _, _) => none
  | some (.connect n, s) =>
      if (w.gateway.sessions n).isSome then
        some (.server (.connect n), { w with server := s })
      else none
  | some (l, s) =>
      some (.server l,
        { w with server := s,
                 toGateway := w.toGateway.post (l.transmits P w.server) })
  | none => none

/-- The gateway reads the next envelope of the server, in one piece. -/
def deliver (P : Platform) (R : Runtime) (w : BridgeState) (n now : ℕ) :
    Option (BridgeLabel × BridgeState) :=
  match w.gateway.sessions n, w.toGateway n with
  | some s, envelope :: rest =>
      let chunk := encode P.serialize envelope
      match ImProtocol.decode R.protobufjs (s.client.recvBuffer ++ chunk) with
      | .ok decoded =>
          if decoded.envelopes = [envelope.toObject] ∧
              w.gateway.crashed = false ∧
              w.gateway.enabled (.imData n now chunk) = true then
            some (.gateway (.imData n now chunk),
              { w with
                gateway := w.gateway.dispatch R (.imData n now chunk)
                toGateway := Function.update w.toGateway n rest })
          else none
      | .error _ => none
  | _, _ => none

/-- The gateway handles an event that brings nothing from the server. -/
def move (R : Runtime) (w : BridgeState) (event : GatewayEvent) :
    Option (BridgeLabel × BridgeState) :=
  match event with
  | .imData _ _ _ => none
  | event =>
      if w.gateway.crashed = false ∧ w.gateway.enabled event = true then
        some (.gateway event, { w with gateway := w.gateway.dispatch R event })
      else none

def advance (P : Platform) (R : Runtime) (w : BridgeState) :
    BridgeChoice → Option (BridgeLabel × BridgeState)
  | .server choice => w.serve P choice
  | .notifyClosed n =>
      if w.server.phase n = some .closed then
        some (.server (.notifyClosed n),
          { w with
            server := ({ w.server with
              phase := Function.update w.server.phase n (some .gone) } :
                ServerState).enqueue P n (.connectionClosed n) })
      else none
  | .arrive n envelope =>
      match w.gateway.sessions n with
      | some session =>
          if session.written[w.taken n]? = some envelope.toObject then
            match w.server.advance P (.receive n envelope) with
            | some (_, s) =>
                some (.server (.receive n envelope),
                  { w with
                    server := s
                    taken := Function.update w.taken n (w.taken n + 1) })
            | none => none
          else none
      | none => none
  | .gateway event => w.move R event
  | .deliver n now => w.deliver P R n now

end BridgeState

theorem reads_toObject (envelope : Envelope) :
    Reads envelope.toObject envelope := by
  refine ⟨rfl, fun uid huid _ => ?_⟩
  obtain ⟨payload, hpayload, hobject⟩ := Option.map_eq_some_iff.mp huid
  rw [hpayload]
  cases payload with
  | loginReq request =>
      cases hobject
      rw [UInt64.ofNat_toNat]
  | _ => cases hobject

variable {P : Platform} {R : Runtime} {w w' : BridgeState} {l : BridgeLabel}

theorem bridgeStep_serve {choice : Choice}
    (h : w.serve P choice = some (l, w')) : BridgeStep P R nobodyElse w l w' := by
  simp only [BridgeState.serve] at h
  split at h
  · cases h
  · next n s hadvance =>
      split at h
      · next hsession =>
          cases h
          refine .serve (.connect n) s (step_advance hadvance) nofun ?_
          rintro m hm
          cases hm
          right
          intro hnone
          rw [hnone] at hsession
          cases hsession
      · cases h
  · next l' s hreceive hconnect hadvance =>
      cases h
      refine .serve l' s (step_advance hadvance) ?_ ?_
      · rintro conn envelope rfl
        exact (hreceive conn envelope rfl).elim
      · rintro n rfl
        exact (hconnect n rfl).elim
  · cases h

theorem bridgeStep_deliver {n now : ℕ}
    (h : w.deliver P R n now = some (l, w')) : BridgeStep P R nobodyElse w l w' := by
  simp only [BridgeState.deliver] at h
  split at h
  · next s envelope rest hs hchannel =>
      split at h
      · next decoded hdecode =>
          split at h
          · next hpossible =>
              cases h
              refine .deliver n now _ s [envelope] rest _ hs hchannel ?_
                ⟨hpossible.2.1, hpossible.2.2, rfl⟩
              rw [Yields, hdecode]
              dsimp only
              rw [hpossible.1]
              exact .cons ⟨rfl, fun _ => rfl⟩ .nil
          · cases h
      · cases h
  · cases h

theorem bridgeStep_move {event : GatewayEvent}
    (h : w.move R event = some (l, w')) : BridgeStep P R nobodyElse w l w' := by
  simp only [BridgeState.move] at h
  split at h
  · cases h
  · next hdata =>
      split at h
      · next hpossible =>
          cases h
          refine .move event _ ⟨hpossible.1, hpossible.2, rfl⟩ ?_ nofun
          rintro n now chunk rfl
          exact hdata n now chunk rfl
      · cases h

theorem bridgeStep_advance {choice : BridgeChoice}
    (h : w.advance P R choice = some (l, w')) : BridgeStep P R nobodyElse w l w' := by
  cases choice with
  | server choice => exact bridgeStep_serve h
  | deliver n now => exact bridgeStep_deliver h
  | notifyClosed n =>
      simp only [BridgeState.advance] at h
      split at h
      · next hphase =>
          cases h
          exact .serve _ _ (.notifyClosed n hphase) nofun nofun
      · cases h
  | arrive n envelope =>
      simp only [BridgeState.advance] at h
      split at h
      · next session hs =>
          split at h
          · next hobject =>
              split at h
              · next l' s hadvance =>
                  cases h
                  have hreceive := step_advance hadvance
                  simp only [ServerState.advance] at hadvance
                  split at hadvance
                  · cases hadvance
                    exact .arrive n session _ envelope _ hs hobject
                      (reads_toObject envelope) hreceive
                  · cases hadvance
              · cases h
          · cases h
      · cases h
  | gateway event => exact bridgeStep_move h

def bridgeDriver (P : Platform) (R : Runtime) :
    Driver (bridge P R nobodyElse) BridgeChoice where
  advance w choice := w.advance P R choice
  sound _ _ _ _ h := bridgeStep_advance h

/-- The run along a schedule from the beginning. -/
theorem exists_bridgeRun (P : Platform) (R : Runtime)
    (choices : List BridgeChoice) :
    ∃ w : BridgeRun P R nobodyElse, w.state = (bridgeDriver P R).follow {} choices ∧
      w.history = ((bridgeDriver P R).trace {} choices).reverse := by
  obtain ⟨w, -, hstate, hhistory⟩ :=
    (bridgeDriver P R).exists_follow choices ⟨[], {}, .init rfl⟩
  refine ⟨w, hstate, ?_⟩
  rw [hhistory]
  exact List.append_nil _

/-! ## Forms that can be evaluated -/

/-- Session `n` has come to rest, and so have the two ends of its connection. -/
def BridgeState.rests (w : BridgeState) (n : ℕ) : Bool :=
  (w.gateway.sessions n).all fun s =>
    !s.enabled (.resume n) && s.readyState ≠ .closing &&
      (s.socket = .open && w.server.phase n = some .up &&
          (w.toGateway n).isEmpty && w.taken n = s.written.length ||
        s.socket = .closed &&
          (w.server.phase n = none || w.server.phase n = some .gone))

theorem quiescent_of_rests (w : BridgeRun P R nobodyElse)
    (halive : w.state.gateway.crashed = false)
    (hserver : w.state.server.Quiescent)
    (hrests : ∀ n < w.state.gateway.nextSession, w.state.rests n = true) :
    w.state.Quiescent := by
  have hall : ∀ n s, w.state.gateway.sessions n = some s →
      s.enabled (.resume n) = false ∧ s.readyState ≠ .closing ∧
        (s.socket = .open ∧ w.state.server.phase n = some .up ∧
            w.state.toGateway n = [] ∧ w.state.taken n = s.written.length ∨
          s.socket = .closed ∧ (w.state.server.phase n = none ∨
            w.state.server.phase n = some .gone)) := by
    intro n s hs
    have hlt : n < w.state.gateway.nextSession := by
      by_contra hge
      have hnone : w.state.gateway.sessions n = none :=
        (registry w.gateway).fresh n (Nat.not_lt.mp hge)
      cases hnone.symm.trans hs
    have hrest := hrests n hlt
    rw [BridgeState.rests, hs] at hrest
    simpa [and_assoc] using hrest
  refine ⟨halive, hserver, fun n s hs => (hall n s hs).1, ?_,
    fun n s hs => (hall n s hs).2.2⟩
  intro n s hs
  have hopen := (hall n s hs).2.1
  cases hready : s.readyState with
  | «open» => exact .inl rfl
  | closing => exact absurd hready hopen
  | closed => exact .inr rfl

/-- The step is in order, and removes only a connection on which nobody is logged
in. -/
def BridgeLabel.inOrder (w : BridgeState) : BridgeLabel → Bool
  | .gateway (.attach uid) => uid < 2 ^ 64
  | .gateway (.resume n) =>
      (w.gateway.sessions n).all fun s =>
        (w.server.users.getConnByUid (UInt64.ofNat s.uid)).isSome
  | .server (.execute _ _ (.removeConnection conn) _) =>
      w.server.users.getUidByConn (some conn) = 0
  | _ => true

theorem inOrder_of_check (hconsistent : w.server.users.Consistent)
    (h : l.inOrder w = true) : InOrder w l := by
  refine ⟨?_, ?_, ?_⟩
  · rintro uid rfl
    exact of_decide_eq_true h
  · rintro n s rfl hs - - - hnone
    rw [BridgeLabel.inOrder, hs, Option.all_some, hnone] at h
    cases h
  · rintro t job conn rfl uid hbound
    have hnobody : w.server.users.getUidByConn (some conn) = 0 :=
      of_decide_eq_true h
    have huid : UInt64.ofNat uid ≠ 0 := ((hconsistent.online _ conn).mp hbound).1
    rw [(hconsistent.getUidByConn_iff huid).mpr hbound] at hnobody
    exact absurd hnobody huid

theorem inOrder_of_all (w : BridgeRun P R nobodyElse)
    (h : w.history.all (fun x => x.2.inOrder x.1) = true) :
    ∀ x ∈ w.history, InOrder x.1 x.2 := by
  rintro ⟨v, l⟩ hx
  obtain ⟨w₁, w₂, rfl, -, -⟩ := Execution.exists_next_of_mem hx
  exact inOrder_of_check (ServerRun.users_consistent (BridgeRun.server w₁))
    (List.all_eq_true.mp h _ hx)

/-! ## Tabs of user 7 -/

/-- The LOGIN_REQ of a tab. -/
def tabLogin : Envelope where
  type := .loginReq
  seq := 1
  timestampMs := 1000
  payload := some (.loginReq { uid := 7 })

/-- A tab is opened, and the server logs it in on the given worker. -/
def openTab (n : ℕ) (i : Fin kBusinessWorkerCount) : List BridgeChoice :=
  [.gateway (.attach 7), .gateway (.imConnect n 1000), .server (.connect n),
    .arrive n tabLogin] ++ (complete i 20).map .server

/-- The first tab is online. -/
def oneTab : List BridgeChoice :=
  openTab 0 0 ++ [.deliver 0 1000, .gateway (.resume 0)]

/-- A second tab is opened and closed before the gateway has read the answer to
its login. -/
def twoTabs : List BridgeChoice :=
  oneTab ++ openTab 1 6 ++
    [.gateway (.wsClose 1), .gateway (.imClose 1), .gateway (.resume 1),
      .server (.disconnect 1), .notifyClosed 1] ++ (complete 6 20).map .server

/-- A second tab takes over, and the first is closed at both ends. -/
def takeover : List BridgeChoice :=
  oneTab ++ openTab 1 6 ++
    [.deliver 1 1000, .gateway (.resume 1), .gateway (.wsClose 0),
      .gateway (.imClose 0), .server (.disconnect 0), .notifyClosed 0] ++
    (complete 0 20).map .server

/-- The second tab, on the one side and on the other. -/
theorem sessions_agree_takeover :
    ∃ w : BridgeRun wirePlatform sampleRuntime nobodyElse,
      (∀ x ∈ w.history, InOrder x.1 x.2) ∧ w.state.Quiescent ∧
      w.state.gateway.sessionsByUid 7 = some 1 ∧
      w.state.server.users.getConnByUid 7 = some 1 := by
  obtain ⟨w, hstate, hhistory⟩ :=
    exists_bridgeRun wirePlatform sampleRuntime takeover
  have horder : ∀ x ∈ w.history, InOrder x.1 x.2 := by
    apply inOrder_of_all
    rw [hhistory]
    decide +kernel
  have hquiescent : w.state.Quiescent := by
    apply quiescent_of_rests
    · rw [hstate]
      decide +kernel
    · rw [hstate]
      exact ServerState.quiescent_of_idle (by decide +kernel)
        (by decide +kernel)
    · rw [hstate]
      decide +kernel
  have hin : w.state.gateway.sessionsByUid 7 = some 1 := by
    rw [hstate]
    decide +kernel
  have hsession : (w.state.gateway.sessions 1).any Session.isOpen = true := by
    rw [hstate]
    decide +kernel
  obtain ⟨s, hs, hopen⟩ := (Option.any_eq_true _ _).mp hsession
  exact ⟨w, horder, hquiescent, hin,
    BridgeRun.sessions_agree w horder hquiescent hin hs hopen⟩

/-- With two tabs, the gateway still has an open session of the user, but the
server has no connection for them, and nothing is on its way. -/
theorem sessions_disagree :
    ∃ (w : BridgeRun wirePlatform sampleRuntime nobodyElse) (s : Session),
      w.state.Quiescent ∧ w.state.gateway.sessionsByUid 7 = some 0 ∧
      w.state.gateway.sessions 0 = some s ∧ s.isOpen = true ∧
      w.state.server.users.getConnByUid (UInt64.ofNat 7) = none := by
  obtain ⟨w, hstate, -⟩ := exists_bridgeRun wirePlatform sampleRuntime twoTabs
  have hsession : (w.state.gateway.sessions 0).any Session.isOpen = true := by
    rw [hstate]
    decide +kernel
  obtain ⟨s, hs, hopen⟩ := (Option.any_eq_true _ _).mp hsession
  refine ⟨w, s, quiescent_of_rests w ?_ ?_ ?_, ?_, hs, hopen, ?_⟩
  · rw [hstate]
    decide +kernel
  · rw [hstate]
    exact ServerState.quiescent_of_idle (by decide +kernel) (by decide +kernel)
  · rw [hstate]
    decide +kernel
  · rw [hstate]
    decide +kernel
  · rw [hstate]
    decide +kernel

end ReliableDelivery
