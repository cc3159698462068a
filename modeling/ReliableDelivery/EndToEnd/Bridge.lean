import ReliableDelivery.EndToEnd.World
import ReliableDelivery.Gateway.Attachment
import ReliableDelivery.Server.Confirmation
import ReliableDelivery.Server.Sessions

/-!
# Gateway and server together

The connections of the server come from one gateway, each from a session of its
own, and from others: connection `n` belongs to session `n`, unless it is one of the
others, who send what they like.  Envelopes arrive in the order in which they were
written and may stay on their way for ever.  The browsers and the network do what
they like.
-/

namespace ReliableDelivery

open Decimal MessageCodec TransitionSystem

/-- `taken` counts the envelopes that the server has read from a session. -/
structure BridgeState where
  server : ServerState := {}
  gateway : GatewayState := {}
  toGateway : Channels := fun _ => []
  taken : Conn → ℕ := fun _ => 0

inductive BridgeLabel where
  | server (l : ServerLabel)
  | gateway (event : GatewayEvent)

/-- What the server makes of an object that the gateway has written, as far as
logging in goes.  A uid that has more than 64 bits comes over in some other
form. -/
def Reads (object : EnvelopeObject) (envelope : Envelope) : Prop :=
  envelope.type.number = object.type ∧
    ∀ uid, object.payload = some (.loginReq uid) → uid < 2 ^ 64 →
      envelope.payload = some (.loginReq { uid := UInt64.ofNat uid })

/-- What the gateway makes of an envelope of the server. -/
def ReadAs (object : EnvelopeObject) (envelope : Envelope) : Prop :=
  object.type = envelope.type.number ∧ ImProtocol.SameFields object envelope

/-- The gateway finds the envelopes in the bytes that have come together, or it
refuses the bytes. -/
def Yields (R : Runtime) (buffer : Bytes) (envelopes : List Envelope) : Prop :=
  match ImProtocol.decode R.protobufjs buffer with
  | .ok decoded => List.Forall₂ ReadAs decoded.envelopes envelopes
  | .error _ => envelopes = []

/-- The connections that are not of the gateway. -/
abbrev Others := Conn → Prop

/-- All connections are of the gateway. -/
def nobodyElse : Others := fun _ => False

inductive BridgeStep (P : Platform) (R : Runtime) (others : Others)
    (w : BridgeState) : BridgeLabel → BridgeState → Prop where
  /-- The server moves, accepts a connection, or receives from others. -/
  | serve (l : ServerLabel) (s : ServerState)
      (hstep : ServerStep P w.server l s)
      (hreceive : ∀ conn envelope, l = .receive conn envelope → others conn)
      (hconnect : ∀ n, l = .connect n →
        others n ∨ w.gateway.sessions n ≠ none) :
      BridgeStep P R others w (.server l)
        { w with server := s,
                 toGateway := w.toGateway.post (l.transmits P w.server) }
  /-- The server receives what a session has written. -/
  | arrive (n : ℕ) (session : Session) (object : EnvelopeObject)
      (envelope : Envelope) (s : ServerState)
      (hs : w.gateway.sessions n = some session)
      (hobject : session.written[w.taken n]? = some object)
      (hreads : Reads object envelope)
      (hstep : ServerStep P w.server (.receive n envelope) s) :
      BridgeStep P R others w (.server (.receive n envelope))
        { w with server := s,
                 taken := Function.update w.taken n (w.taken n + 1) }
  /-- The gateway handles an event that brings nothing from the server.  A new
  session has a connection of its own. -/
  | move (event : GatewayEvent) (g : GatewayState)
      (hstep : (gateway R).step w.gateway event g)
      (hdata : ∀ n now chunk, event ≠ .imData n now chunk)
      (hown : ∀ n, others n → g.sessions n = none) :
      BridgeStep P R others w (.gateway event) { w with gateway := g }
  /-- The gateway handles bytes that complete the next envelopes, if any. -/
  | deliver (n now : ℕ) (chunk : Bytes) (session : Session)
      (envelopes rest : List Envelope) (g : GatewayState)
      (hs : w.gateway.sessions n = some session)
      (hchannel : w.toGateway n = envelopes ++ rest)
      (hyields : Yields R (session.client.recvBuffer ++ chunk) envelopes)
      (hstep : (gateway R).step w.gateway (.imData n now chunk) g) :
      BridgeStep P R others w (.gateway (.imData n now chunk))
        { w with gateway := g,
                 toGateway := Function.update w.toGateway n rest }

/-- All runs of the gateway with the server. -/
def bridge (P : Platform) (R : Runtime) (others : Others) :
    TransitionSystem BridgeState BridgeLabel where
  init w := w = {}
  step := BridgeStep P R others

abbrev BridgeRun (P : Platform) (R : Runtime) (others : Others) :=
  (bridge P R others).Execution

/-! ## Quiescence -/

/-- Neither end has anything in hand, and no event, frame or envelope is on its
way: the logins are answered or awaited, and every connection stands with both
ends or is closed at both. -/
structure BridgeState.Quiescent (w : BridgeState) : Prop where
  alive : w.gateway.crashed = false
  server : w.server.Quiescent
  attached : ∀ n s, w.gateway.sessions n = some s →
    s.enabled (.resume n) = false
  webSockets : ∀ n s, w.gateway.sessions n = some s →
    s.readyState = .open ∨ s.readyState = .closed
  connections : ∀ n s, w.gateway.sessions n = some s →
    s.socket = .open ∧ w.server.phase n = some .up ∧
        w.toGateway n = [] ∧ w.taken n = s.written.length ∨
      s.socket = .closed ∧
        (w.server.phase n = none ∨ w.server.phase n = some .gone)

/-! ## The parts -/

variable {P : Platform} {R : Runtime} {others : Others}

def serverSide (P : Platform) (R : Runtime) (others : Others) :
    Projection (bridge P R others) (server P) where
  onState := BridgeState.server
  onLabel
    | .server l => some l
    | .gateway _ => none
  init w hinit := by
    rw [show w = {} from hinit]
    rfl
  step w l w' k hstep hl := by
    cases hstep with
    | serve l' s hstep hreceive hconnect =>
        cases hl
        exact hstep
    | arrive n session object envelope s hs hobject hreads hstep =>
        cases hl
        exact hstep
    | move event g hstep hdata hown => cases hl
    | deliver n now chunk session envelopes rest g hs hchannel hyields hstep =>
        cases hl
  stutter w l w' hstep hl := by
    cases hstep with
    | serve l' s hstep hreceive hconnect => cases hl
    | arrive n session object envelope s hs hobject hreads hstep => cases hl
    | move event g hstep hdata hown => rfl
    | deliver n now chunk session envelopes rest g hs hchannel hyields hstep =>
        rfl

def gatewaySide (P : Platform) (R : Runtime) (others : Others) :
    Projection (bridge P R others) (gateway R) where
  onState := BridgeState.gateway
  onLabel
    | .server _ => none
    | .gateway event => some event
  init w hinit := by
    rw [show w = {} from hinit]
    rfl
  step w l w' k hstep hl := by
    cases hstep with
    | serve l' s hstep hreceive hconnect => cases hl
    | arrive n session object envelope s hs hobject hreads hstep => cases hl
    | move event g hstep hdata hown =>
        cases hl
        exact hstep
    | deliver n now chunk session envelopes rest g hs hchannel hyields hstep =>
        cases hl
        exact hstep
  stutter w l w' hstep hl := by
    cases hstep with
    | serve l' s hstep hreceive hconnect => rfl
    | arrive n session object envelope s hs hobject hreads hstep => rfl
    | move event g hstep hdata hown => cases hl
    | deliver n now chunk session envelopes rest g hs hchannel hyields hstep =>
        cases hl

namespace BridgeRun

/-- What the server has done. -/
def server (w : BridgeRun P R others) : ServerRun P :=
  (serverSide P R others).onRun w

/-- What the gateway has done. -/
def gateway (w : BridgeRun P R others) : GatewayRun R :=
  (gatewaySide P R others).onRun w

section Next

variable {w w' : BridgeRun P R others}

theorem server_next {l : ServerLabel} (h : Execution.Next w (.server l) w') :
    Execution.Next (server w) l (server w') :=
  (serverSide P R others).onRun_next h rfl

theorem gateway_next {event : GatewayEvent}
    (h : Execution.Next w (.gateway event) w') :
    Execution.Next (gateway w) event (gateway w') :=
  (gatewaySide P R others).onRun_next h rfl

theorem server_stutter {event : GatewayEvent}
    (h : Execution.Next w (.gateway event) w') : server w' = server w :=
  (serverSide P R others).onRun_stutter h rfl

theorem gateway_stutter {l : ServerLabel}
    (h : Execution.Next w (.server l) w') : gateway w' = gateway w :=
  (gatewaySide P R others).onRun_stutter h rfl

/-- A session goes on with every step. -/
theorem session_next {l : BridgeLabel} (h : Execution.Next w l w') {n : ℕ}
    {s : Session} (hs : w.state.gateway.sessions n = some s) :
    ∃ s', w'.state.gateway.sessions n = some s' ∧ s.Onward s' := by
  cases l with
  | server l =>
      have hsame : w'.state.gateway = w.state.gateway :=
        congrArg Execution.state (gateway_stutter h)
      exact ⟨s, hsame ▸ hs, refl_of Session.Onward s⟩
  | gateway event =>
      obtain ⟨s', hs', honward, -⟩ := passes_of_next (gateway_next h) hs
      exact ⟨s', hs', honward⟩

end Next

/-- The others have connections of their own. -/
theorem own_of_session (w : BridgeRun P R others) {n : ℕ} {s : Session}
    (hs : w.state.gateway.sessions n = some s) : ¬others n := by
  revert s
  apply Execution.induct (P := fun w : BridgeRun P R others => ∀ {s},
    (Execution.state w).gateway.sessions n = some s → ¬others n)
  · intro w _ hinit s hs
    rw [show Execution.state w = {} from hinit] at hs
    cases hs
  · intro w w' l ih hnext s' hs'
    cases hs : w.state.gateway.sessions n with
    | some s => exact ih hs
    | none =>
        obtain ⟨hstep, -⟩ := id hnext
        generalize hw' : w'.state = v at hstep
        cases hstep with
        | serve l s hstep hreceive hconnect =>
            rw [hw', hs] at hs'
            cases hs'
        | arrive m session object envelope s hs₁ hobject hreads hstep =>
            rw [hw', hs] at hs'
            cases hs'
        | move event g hstep hdata hown =>
            rw [hw'] at hs'
            intro hn
            cases (hown n hn).symm.trans hs'
        | deliver m now chunk session envelopes rest g hs₁ hchannel hyields hstep =>
            obtain ⟨uid, hattach, -⟩ := attached_of_next (gateway_next hnext) hs hs'
            cases hattach

end BridgeRun

end ReliableDelivery
