import ReliableDelivery.Browser.Display
import ReliableDelivery.Gateway.Correlation

/-!
# The page and its session

Within one login the page has one WebSocket, and it receives what its session in
the gateway sends.  A refusal of the gateway has no `msg_id`, and neither has one
of the server.
-/

namespace ReliableDelivery

open Ecmascript TransitionSystem

/-! ## Refusals -/

/-- The `msg_id` of an ACK to the browser that is not ok. -/
def Traffic.refusal (x : Traffic) : Option ℕ :=
  match x.sendAck with
  | some (false, _, msgId) => some msgId
  | _ => none

/-- The ACKs of the server that are not ok have no `msg_id`. -/
def ServerRefusesUnnumbered (t : List Traffic) : Prop :=
  ∀ x ∈ t, ∀ seq msgId, x.serverAck = some (seq, msgId, false) → msgId = 0

section Refusals

variable {R : Runtime} {s s' : Session} {l l' : List Traffic}

/-- No refusal in the traffic has a `msg_id`. -/
def Unnumbered (l : List Traffic) : Prop :=
  ∀ x ∈ l, ∀ msgId ∈ x.refusal, msgId = 0

theorem unnumbered_nil : Unnumbered [] :=
  List.forall_mem_nil _

theorem unnumbered_append :
    Unnumbered (l ++ l') ↔ Unnumbered l ∧ Unnumbered l' :=
  List.forall_mem_append

theorem unnumbered_of_none (h : ∀ x ∈ l, x.sendAck = none) : Unnumbered l := by
  intro x hx msgId hmsgId
  rw [Traffic.refusal, h x hx] at hmsgId
  cases hmsgId

theorem unnumbered_map {α : Type} {f : α → Traffic}
    (h : ∀ a, (f a).sendAck = none) (as : List α) : Unnumbered (as.map f) := by
  apply unnumbered_of_none
  intro x hx
  obtain ⟨a, -, rfl⟩ := List.mem_map.mp hx
  exact h a

theorem Session.Heeds.unnumbered {x : EnvelopeObject}
    {frames : List BrowserFrame} (h : s.Heeds x frames s')
    (hserver : ∀ seq msgId,
      (Traffic.fromServer x).serverAck = some (seq, msgId, false) → msgId = 0) :
    Unnumbered (frames.map .toBrowser) := by
  cases h with
  | ignore hbooks hpush => exact unnumbered_nil
  | settle hack hpending hbooks hframes =>
      rcases hframes with rfl | ⟨reason, rfl⟩
      · exact unnumbered_nil
      · intro y hy msgId hmsgId
        rw [List.map_singleton, List.mem_singleton] at hy
        rw [hy, Traffic.refusal, Traffic.sendAck] at hmsgId
        cases hok : x.acked.2.2 with
        | true =>
            rw [hok] at hmsgId
            cases hmsgId
        | false =>
            rw [hok] at hmsgId
            cases hmsgId
            apply hserver x.acked.1
            rw [Traffic.serverAck, if_pos hack, ← hok]
  | push hpush hbooks hframes =>
      apply unnumbered_of_none
      intro y hy
      obtain ⟨frame, hframe, rfl⟩ := List.mem_map.mp hy
      exact hframes frame hframe

theorem Session.Passes.unnumbered (h : s.Passes R l s')
    (hserver : ServerRefusesUnnumbered l) : Unnumbered l := by
  cases h with
  | @idle l s' hidle hl =>
      obtain ⟨frames, houtput, hframes⟩ := hidle.output
      rw [houtput]
      apply unnumbered_of_none
      intro x hx
      rcases List.mem_append.mp hx with hx | hx
      · obtain ⟨message, rfl, -⟩ := hl x hx
        rfl
      · obtain ⟨frame, hframe, rfl⟩ := List.mem_map.mp hx
        exact hframes frame hframe
  | login hbooks hl =>
      apply unnumbered_of_none
      rcases hl with rfl | ⟨now, rfl⟩
      · simp
      · simp [Traffic.sendAck]
  | refuse hmessage hbooks hl =>
      rcases hl with rfl | ⟨reason, rfl⟩
      · exact unnumbered_of_none (by simp [Traffic.sendAck])
      · simp [Unnumbered, Traffic.refusal, Traffic.sendAck]
  | forward hmessage hbooks =>
      exact unnumbered_of_none (by simp [Traffic.sendAck])
  | acknowledge hmessage hseq hbooks hl =>
      apply unnumbered_of_none
      rcases hl with rfl | ⟨now, rfl⟩
      · simp [Traffic.sendAck]
      · simp [Traffic.sendAck]
  | unknown hx hmessage hseq hbooks =>
      apply unnumbered_of_none
      split
      · simp [Traffic.sendAck]
      · simp [Traffic.sendAck]
  | @receive s₁ s' now envelopes hbooks hsent hwritten hs' =>
      subst hs'
      have hserver' : ∀ x ∈ envelopes, ∀ seq msgId,
          (Traffic.fromServer x).serverAck = some (seq, msgId, false) →
            msgId = 0 :=
        fun x hx => hserver _ (List.mem_append_left _ (List.mem_map_of_mem hx))
      obtain ⟨frames, hframes, hsame, hunnumbered⟩ :=
        Session.handleEnvelopes_induct (R := R)
          (P := fun frames _ => Unnumbered (frames.map .toBrowser)) now envelopes
          s₁ unnumbered_nil (by
            intro frames s₂ x frames' s₃ hx hbefore hheeds
            rw [List.map_append, unnumbered_append]
            exact ⟨hbefore, hheeds.unnumbered (hserver' x hx)⟩)
      rw [Session.output_eq (hframes.trans (by rw [hsent]))
        ((hsame.trans hwritten).trans (List.append_nil _).symm)]
      rw [List.map_nil, List.append_nil, unnumbered_append]
      exact ⟨unnumbered_map (fun _ => rfl) envelopes, hunnumbered⟩

/-- If no refusal of the server has a `msg_id`, then none that the browser gets
has one. -/
theorem unnumbered_traffic {n : ℕ} (e : GatewayRun R)
    (hs : e.state.sessions n = some s)
    (hserver : ServerRefusesUnnumbered (traffic R n e.history)) :
    Unnumbered (traffic R n e.history) := by
  revert hserver
  apply session_induct (R := R) (n := n) (P := fun past _ =>
    ServerRefusesUnnumbered (traffic R n past) → Unnumbered (traffic R n past))
    _ _ e hs
  · intro past uid hnil _
    rw [hnil]
    exact unnumbered_nil
  · intro g event past s s' ih _ hpasses hserver
    rw [traffic] at hserver ⊢
    obtain ⟨hbefore, hevent⟩ := List.forall_mem_append.mp hserver
    rw [unnumbered_append]
    exact ⟨ih hbefore, hpasses.unnumbered hevent⟩

end Refusals

/-! ## What the page receives -/

def AppEvent.received : AppEvent → Option BrowserFrame
  | .wsMessage _ _ (.frame frame) => some frame
  | _ => none

theorem received_of_refusal {event : AppEvent} {msgId : ℕ}
    (h : event.refusal = some msgId) :
    ∃ clientMsgId reason,
      event.received = some (.sendAck false clientMsgId msgId reason) := by
  rw [AppEvent.refusal.eq_def] at h
  split at h
  · cases h
    exact ⟨_, _, rfl⟩
  · cases h

/-- What the page received, in order. -/
def received {engine : Engine} (e : AppRun engine) : List BrowserFrame :=
  e.history.reverse.filterMap fun step => step.2.received

/-- A page that receives what its session sends gets no refusal with a `msg_id`. -/
theorem refusalsUnnumbered_of_session {R : Runtime} {engine : Engine} {n : ℕ}
    {s : Session} (g : GatewayRun R) (hs : g.state.sessions n = some s)
    (hserver : ServerRefusesUnnumbered (traffic R n g.history))
    (e : AppRun engine) (hreceived : received e <+: s.sent) :
    RefusalsUnnumbered e := by
  rintro ⟨state, event⟩ hstep msgId hrefusal
  obtain ⟨clientMsgId, reason, hframe⟩ := received_of_refusal hrefusal
  have hsent : .sendAck false clientMsgId msgId reason ∈ s.sent :=
    hreceived.subset (List.mem_filterMap.mpr
      ⟨(state, event), List.mem_reverse.mpr hstep, hframe⟩)
  rw [← (outputs_traffic g hs).1] at hsent
  obtain ⟨x, hx, hx'⟩ := List.mem_filterMap.mp hsent
  apply unnumbered_traffic g hs hserver x hx
  rw [Traffic.frame.eq_def] at hx'
  split at hx'
  · cases hx'
    rfl
  · cases hx'

/-! ## A message to oneself -/

/-- User 7 sends a message to user 7. -/
def sampleEcho : Decimal.Bytes :=
  Decimal.literal "\x7b\"type\":\"send_message\",\"to_uid\":7,\"content\":\"hi\",\"client_msg_id\":\"c\"\x7d"

/-- The server stores it as message 5 and pushes it. -/
def sampleEchoPush : Envelope where
  type := .chatPush
  seq := 5
  timestampMs := 1000
  payload := some (.chatPush
    { msgId := 5, fromUid := 7, toUid := 7
      content := Decimal.literal "hi", serverTimestampMs := 1000 })

/-- The surroundings of that session. -/
def sampleEchoRuntime : Runtime where
  engine := engineOf 7
  parse data :=
    if data = sampleEcho then
      some (.object [(ascii "type", .string (ascii "send_message")),
        (ascii "to_uid", .number (.finite 7)),
        (ascii "content", .string (ascii "hi")),
        (ascii "client_msg_id", .string (ascii "c"))])
    else sampleChatRuntime.parse data
  protobufjs :=
    { encode := sampleChatRuntime.protobufjs.encode
      decode := fun body =>
        if sampleEchoPush.serializeToString = some body then
          .ok sampleEchoPush.toObject
        else sampleChatRuntime.protobufjs.decode body }
  utf8Write := sampleChatRuntime.utf8Write
  utf8Read := sampleChatRuntime.utf8Read

/-- The gateway passes on the message, then the push and the ACK. -/
def sampleEchoSession : List GatewayEvent :=
  [.attach 7, .imConnect 0 1000,
   .imData 0 1000
     (MessageCodec.encode Envelope.serializeToString sampleResponse),
   .resume 0,
   .wsMessage 0 1000 (.buffer sampleEcho),
   .imData 0 1000
     (MessageCodec.encode Envelope.serializeToString sampleEchoPush),
   .imData 0 1000
     (MessageCodec.encode Envelope.serializeToString sampleChatAck)]

/-- User 7 sends message 5 to user 7.  The push comes before the ACK, and the page
shows the message twice. -/
theorem message_shown_twice :
    ∃ (g : GatewayRun sampleEchoRuntime) (s : Session) (e : AppRun (engineOf 7)),
      g.state.sessions 0 = some s ∧ received e = s.sent ∧
      ServerRefusesUnnumbered (traffic sampleEchoRuntime 0 g.history) ∧
      e.state.sent = [.sendMessage 7 (ascii "hi") (ascii "c"), .messageAck 5] ∧
      ¬e.state.ShownOnce := by
  obtain ⟨g, -, hstate, hhistory⟩ := (gatewayDriver
    sampleEchoRuntime).exists_follow sampleEchoSession ⟨[], {}, .init rfl⟩
  obtain ⟨e, hstate', hhistory'⟩ := exists_appRun (engineOf 7) (sampleSending ++
    [.wsMessage 1000 true (.frame (.message 5 7 7 (ascii "hi") 1000 false)),
     .wsMessage 1000 true (.frame (.sendAck true (ascii "c") 5 []))])
  have hsent : (g.state.sessions 0).map Session.sent = some (received e) := by
    rw [hstate, received, hhistory']
    decide +kernel
  obtain ⟨s, hs, hsent⟩ := Option.map_eq_some_iff.mp hsent
  refine ⟨g, s, e, hs, hsent.symm, ?_, ?_, ?_⟩
  · rw [hhistory]
    intro x hx seq msgId hack
    have hnone : ∀ x ∈ traffic sampleEchoRuntime 0
        (((gatewayDriver sampleEchoRuntime).trace {} sampleEchoSession).reverse ++
          []), ∀ ack ∈ x.serverAck, ack.2.2 = true := by
      decide +kernel
    cases hnone x hx _ hack
  · rw [hstate']
    decide +kernel
  · intro honce
    have htwice := honce (7, 1) (7, 2) 5
    rw [hstate'] at htwice
    revert htwice
    decide +kernel

end ReliableDelivery
