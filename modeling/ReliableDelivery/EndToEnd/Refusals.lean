import ReliableDelivery.Browser.Session
import ReliableDelivery.EndToEnd.Authenticity

/-!
# Refusals from end to end

The page relies on refusals without a `msg_id`.  It gets none with one, because the
server sends none and the gateway makes none up.
-/

namespace ReliableDelivery

open Ecmascript TransitionSystem

variable {P : Platform} {R : Runtime} {others : Others} {n : ℕ} {s : Session}

/-- A negative ACK has no `msg_id` for the gateway either. -/
theorem msgId_of_refusal {e e' : ServerRun P} {t : Thread} {job : Job} {conn : Conn}
    {envelope : Envelope} {seq msgId : ℕ}
    (hsend : Execution.Next e (.execute t job (.sendEnvelope conn envelope) ()) e')
    (hacked : envelope.toObject.acked = (seq, msgId, false)) : msgId = 0 := by
  rw [EnvelopeObject.acked, Envelope.toObject] at hacked
  cases hpayload : envelope.payload with
  | none =>
      rw [hpayload] at hacked
      cases hacked
      rfl
  | some payload =>
      rw [hpayload] at hacked
      cases payload with
      | ack ack =>
          obtain ⟨-, rfl, hok⟩ : ack.seq.toNat = seq ∧ ack.msgId.toNat = msgId ∧
              ack.ok = false := by
            simpa [Payload.toObject] using hacked
          rw [refusal_unnumbered hsend hpayload hok]
          rfl
      | _ =>
          cases hacked
          rfl

namespace BridgeRun

/-- No refusal that a session reads has a `msg_id`, as long as the numbers of the server
are doubles without rounding. -/
theorem serverRefusesUnnumbered (w : BridgeRun P R others)
    (hexact : ∀ envelope, Sent (server w) n envelope → envelope.Exact) :
    ServerRefusesUnnumbered (traffic R n (gateway w).history) := by
  intro x hx seq msgId hack
  cases x with
  | fromServer object =>
      obtain ⟨envelope, hsent, hread⟩ := sent_of_read w hx
      obtain rfl : object = envelope.toObject := hread.2 (hexact envelope hsent)
      obtain ⟨e₁, e₂, t, job, hnext, -⟩ := hsent
      rw [Traffic.serverAck, Option.ite_none_right_eq_some, Option.some.injEq] at hack
      exact msgId_of_refusal hnext hack.2
  | _ => cases hack

/-- A page that receives what its session sends, in a run of the gateway with the
server, gets no refusal with a `msg_id`. -/
theorem refusalsUnnumbered {engine : Engine} (w : BridgeRun P R others)
    (hexact : ∀ envelope, Sent (server w) n envelope → envelope.Exact)
    (hs : w.state.gateway.sessions n = some s) (e : AppRun engine)
    (hreceived : received e <+: s.sent) : RefusalsUnnumbered e :=
  refusalsUnnumbered_of_session (gateway w) hs (serverRefusesUnnumbered w hexact) e
    hreceived

end BridgeRun

end ReliableDelivery
