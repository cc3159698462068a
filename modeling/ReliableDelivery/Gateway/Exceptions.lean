import ReliableDelivery.Gateway.Rules

/-!
# Which messages from the browser end the gateway

An exception that escapes from `handleMessage` ends the process, with the
sessions of all its users.  Two kinds of messages raise one: a property that has
to become a number or a text and cannot be converted, and the acknowledgement of
a push once the connection to the server is gone, since only `sendChat` is called
under `try`.  Every other message is handled to its end.
-/

namespace ReliableDelivery

open Decimal Ecmascript TransitionSystem

/-! ## The two kinds -/

/-- The property is absent or can be converted. -/
def Convertible (message : BrowserMessage) (name : Text) : Prop :=
  (property name message).all Json.convertible = true

/-- The number is that of a push which the session has not acknowledged, and the
connection to the server is gone. -/
def Session.Stranded (s : Session) (x : Number) : Prop :=
  s.registered = true ∧ x.isInteger = true ∧ x.nonpositive = false ∧
    s.client.pushSeqByMsgId x.toNat ≠ none ∧
    ¬(s.client.connected = true ∧ s.client.hasSocket = true)

/-- The message is of neither kind. -/
def Session.Harmless (R : Runtime) (s : Session) (data : RawData) : Prop :=
  ∀ message, Session.parseMessage R data = some message →
    (Session.isText (property (ascii "type") message) (ascii "send_message") →
      Convertible message (ascii "to_uid") ∧
      Convertible message (ascii "content") ∧
      Convertible message (ascii "client_msg_id")) ∧
    (Session.isText (property (ascii "type") message) (ascii "message_ack") →
      Convertible message (ascii "msg_id") ∧
      ∀ x, toNumber R.engine (property (ascii "msg_id") message) = .ok x →
        ¬s.Stranded x)

namespace Session

variable {R : Runtime} {s : Session}

theorem returns_sendJson (frame : BrowserFrame) : (sendJson frame).Returns s :=
  Js.returns_modify _ _

/-- The conversions are all that can fail in `handleSendMessage`. -/
theorem returns_handleSendMessage (now : ℕ) (message : BrowserMessage) :
    (handleSendMessage R now message).Returns s ↔
      Convertible message (ascii "to_uid") ∧
      Convertible message (ascii "content") ∧
      Convertible message (ascii "client_msg_id") := by
  rw [handleSendMessage, Js.returns_get_bind, Js.returns_ofExcept_bind]
  simp only [Js.returns_ofExcept_bind]
  have hrest : ∀ (toUid : Number) (content clientMsgId : Text),
      Js.Returns (if s.registered = false then
        refuse clientMsgId (ascii "IMServer connection is not ready")
      else if toUid.isInteger = false ∨ toUid.nonpositive = true then
        refuse clientMsgId (ascii "invalid to_uid")
      else if trim content = [] then refuse clientMsgId (ascii "empty content")
      else if clientMsgId = [] then
        refuse clientMsgId (ascii "missing client_msg_id")
      else
        tryCatch (sendChat R now toUid.toNat (trim content) clientMsgId)
          fun error => refuse clientMsgId error.message) s := by
    intro toUid content clientMsgId
    repeat' split
    · exact returns_sendJson _
    · exact returns_sendJson _
    · exact returns_sendJson _
    · exact returns_sendJson _
    · exact Js.returns_tryCatch fun error s' => returns_sendJson _
  constructor
  · rintro ⟨toUid, hto, content, hcontent, clientMsgId, hclient, -⟩
    exact ⟨(toNumber_ok _ _).mp ⟨toUid, hto⟩,
      (toTextOrEmpty_ok _ _).mp ⟨content, hcontent⟩,
      (toTextOrEmpty_ok _ _).mp ⟨clientMsgId, hclient⟩⟩
  · rintro ⟨hto, hcontent, hclient⟩
    obtain ⟨toUid, hto⟩ := (toNumber_ok R.engine _).mpr hto
    obtain ⟨content, hcontent⟩ := (toTextOrEmpty_ok R.engine _).mpr hcontent
    obtain ⟨clientMsgId, hclient⟩ := (toTextOrEmpty_ok R.engine _).mpr hclient
    exact ⟨toUid, hto, content, hcontent, clientMsgId, hclient,
      hrest toUid content clientMsgId⟩

theorem returns_sendEnvelope {envelope : EnvelopeObject}
    (hfits : (R.protobufjs.encode envelope).length < 2 ^ 32) :
    (sendEnvelope R envelope).Returns s ↔
      s.client.connected = true ∧ s.client.hasSocket = true := by
  have hencode : ImProtocol.encode R.protobufjs envelope = .ok
      (MessageCodec.htonl (R.protobufjs.encode envelope).length ++
        R.protobufjs.encode envelope) := by
    simp only [ImProtocol.encode, ImProtocol.writeUInt32BE, if_pos hfits]
    rfl
  rw [sendEnvelope, Js.returns_get_bind, hencode]
  cases hconnected : s.client.connected with
  | false => simp
  | true =>
      cases hsocket : s.client.hasSocket with
      | false => simp
      | true => simp [Js.Returns]

/-- An acknowledgement is refused or goes to the server. -/
theorem returns_ackMessage_bind {now msgId : ℕ} {p : Bool → Js Session Unit}
    (hfits : ∀ seq, (R.protobufjs.encode (ackEnvelope now msgId seq)).length <
      2 ^ 32)
    (hp : ∀ known s', (p known).Returns s') :
    (ackMessage R now msgId >>= p).Returns s ↔
      (s.client.pushSeqByMsgId msgId ≠ none →
        s.client.connected = true ∧ s.client.hasSocket = true) := by
  rw [ackMessage, bind_assoc, Js.returns_get_bind]
  cases hseq : s.client.pushSeqByMsgId msgId with
  | none => simp [hp]
  | some seq =>
      simp only [bind_assoc, pure_bind]
      rw [modifyClient, Js.returns_modify_bind, Js.returns_bind]
      have hsend := @returns_sendEnvelope R { s with
        client := { s.client with
          pushSeqByMsgId :=
            Function.update s.client.pushSeqByMsgId msgId none } }
        (ackEnvelope now msgId seq) (hfits seq)
      simp only [ne_eq, reduceCtorEq, not_false_eq_true, forall_const]
      rw [← hsend, Js.Returns]
      constructor
      · rintro ⟨a, s', hexec, -⟩
        exact ⟨a, congrArg Prod.fst hexec⟩
      · rintro ⟨a, hexec⟩
        exact ⟨a, _, Prod.ext hexec rfl, hp true _⟩

theorem returns_handleMessageAck {now : ℕ} {message : BrowserMessage}
    (hfits : ∀ msgId seq,
      (R.protobufjs.encode (ackEnvelope now msgId seq)).length < 2 ^ 32) :
    (handleMessageAck R now message).Returns s ↔
      Convertible message (ascii "msg_id") ∧
      ∀ x, toNumber R.engine (property (ascii "msg_id") message) = .ok x →
        ¬s.Stranded x := by
  rw [handleMessageAck, Js.returns_get_bind, Js.returns_ofExcept_bind,
    Convertible, ← toNumber_ok R.engine]
  have hone : ∀ x : Number, Js.Returns (if s.registered = false ∨
      x.isInteger = false ∨ x.nonpositive = true then pure ()
      else do
        let known ← ackMessage R now x.toNat
        if known = false then
          sendJson (.error (ascii "cannot ack unknown msg_id " ++
            R.engine.numberToString x))) s ↔ ¬s.Stranded x := by
    intro x
    split
    · next hskip =>
        simp only [Js.returns_pure, true_iff]
        rintro ⟨hregistered, hinteger, hpositive, -⟩
        simp [hregistered, hinteger, hpositive] at hskip
    · next hack =>
        have hanswer : ∀ (known : Bool) (s' : Session),
            Js.Returns (if known = false then
              sendJson (.error (ascii "cannot ack unknown msg_id " ++
                R.engine.numberToString x)) else pure ()) s' := by
          intro known s'
          split
          · exact returns_sendJson _
          · exact Js.returns_pure _ _
        rw [returns_ackMessage_bind (hfits x.toNat) hanswer, Stranded]
        simp only [not_or, Bool.not_eq_false, Bool.not_eq_true] at hack
        simp [hack]
  constructor
  · rintro ⟨x, hx, hreturns⟩
    refine ⟨⟨x, hx⟩, ?_⟩
    intro x' hx'
    rw [hx, Except.ok.injEq] at hx'
    subst hx'
    exact (hone x).mp hreturns
  · rintro ⟨⟨x, hx⟩, hall⟩
    exact ⟨x, hx, (hone x).mpr (hall x hx)⟩

end Session

theorem Session.returns_handleMessage {R : Runtime} {s : Session} {now : ℕ}
    (hfits : ∀ msgId seq, (R.protobufjs.encode
      (Session.ackEnvelope now msgId seq)).length < 2 ^ 32)
    (data : RawData) :
    (Session.handleMessage R now data).Returns s ↔ s.Harmless R data := by
  rw [Session.handleMessage, Session.Harmless]
  cases hparse : Session.parseMessage R data with
  | none => simp [Session.returns_sendJson]
  | some message =>
      simp only [Option.some.injEq, forall_eq']
      split
      · next hsend =>
          have hack : Session.isText (property (ascii "type") message)
              (ascii "message_ack") = false := by
            rw [← Bool.not_eq_true]
            intro hack
            exact absurd (Session.isText_unique hsend hack) (by decide)
          rw [Session.returns_handleSendMessage]
          simp [hsend, hack]
      · next hsend =>
          split
          · next hack =>
              rw [Session.returns_handleMessageAck hfits]
              simp [hsend, hack]
          · next hack =>
              simp only [hsend, hack, Bool.false_eq_true, false_implies,
                and_self, iff_true]
              split
              · exact Session.returns_sendJson _
              · exact Session.returns_sendJson _

/-- In every state that a session can reach, a message from the browser is
handled without an exception exactly if it is of neither kind, and otherwise it
ends the process. -/
theorem handleMessage_returns_iff (R : Runtime)
    (hfits : ∀ now msgId seq, (R.protobufjs.encode
      (Session.ackEnvelope now msgId seq)).length < 2 ^ 32)
    (e : GatewayRun R) {n : ℕ} {s : Session} (hs : e.state.sessions n = some s)
    (now : ℕ) (data : RawData) :
    ((Session.handleMessage R now data).Returns s ↔ s.Harmless R data) ∧
      ∀ e' : GatewayRun R, Execution.Next e (.wsMessage n now data) e' →
        (e'.state.crashed = true ↔ ¬s.Harmless R data) := by
  have hreturns := @Session.returns_handleMessage R s now (hfits now) data
  refine ⟨hreturns, ?_⟩
  rintro e' ⟨⟨hcrashed, -, hstate⟩, -⟩
  have hdispatch := @GatewayState.dispatch_onSession R e.state n s
    (.wsMessage n now data) _ hs rfl
  rw [hstate, hdispatch, ← hreturns, hcrashed, Js.Returns]
  rcases (Session.handleMessage R now data).exec s with ⟨e | ⟨⟩, s'⟩
  · simp [Except.isOk, Except.toBool]
  · simp [Except.isOk, Except.toBool]

/-! ## A concrete session -/

def gatewayDriver (R : Runtime) : Driver (gateway R) GatewayEvent where
  advance g event :=
    if g.crashed = false ∧ g.enabled event = true then
      some (event, g.dispatch R event)
    else none
  sound g event event' g' h := by
    split at h
    · next hpossible =>
        cases h
        exact ⟨hpossible.1, hpossible.2, rfl⟩
    · cases h

/-- The run along a list of events; impossible ones are skipped. -/
theorem exists_gatewayRun (R : Runtime) (events : List GatewayEvent) :
    ∃ e : GatewayRun R, e.state = (gatewayDriver R).follow {} events := by
  obtain ⟨e, -, hstate, -⟩ := (gatewayDriver R).exists_follow events
    ⟨[], {}, .init rfl⟩
  exact ⟨e, hstate⟩

/-- User 7 is logged in. -/
def sampleResponse : Envelope where
  type := .loginResp
  seq := 1
  timestampMs := 1000
  payload := some (.loginResp { ok := true })

/-- Message 1, from user 2 to user 7. -/
def samplePush : Envelope where
  type := .chatPush
  seq := 1
  timestampMs := 1000
  payload := some (.chatPush
    { msgId := 1, fromUid := 2, toUid := 7, content := literal "hi",
      serverTimestampMs := 1000 })

/-- What goes over the connection of user 7, who is sent one message. -/
def sampleEnvelopes : List Envelope :=
  [{ type := .loginReq, seq := 1, timestampMs := 1000,
     payload := some (.loginReq { uid := 7 }) },
   sampleResponse, samplePush,
   { type := .ack, seq := 1, timestampMs := 1000,
     payload := some (.ack { msgId := 1, seq := 1, ok := true }) }]

/-- The acknowledgement of message 1. -/
def sampleAck : Bytes :=
  literal "\x7b\"type\":\"message_ack\",\"msg_id\":1\x7d"

/-- A chat message whose receiver is an object with a property `toString`. -/
def sampleSend : Bytes :=
  literal "\x7b\"type\":\"send_message\",\"to_uid\":\x7b\"toString\":1\x7d\x7d"

/-- The surroundings of the session, as far as it goes. -/
def sampleRuntime : Runtime where
  engine :=
    { stringToNumber := fun _ => .nan
      numberToString := fun _ => ascii "1" }
  parse data :=
    if data = sampleAck then
      some (.object [(ascii "type", .string (ascii "message_ack")),
        (ascii "msg_id", .number (.finite 1))])
    else if data = sampleSend then
      some (.object [(ascii "type", .string (ascii "send_message")),
        (ascii "to_uid", .object
          [(ascii "toString", .number (.finite 1))])])
    else none
  protobufjs :=
    { encode := fun object =>
        ((sampleEnvelopes.find? fun x => x.toObject = object).bind
          Envelope.serializeToString).getD []
      decode := fun body =>
        match sampleEnvelopes.find? fun x =>
          x.serializeToString = some body with
        | some x => .ok x.toObject
        | none => .error (literal "index out of range") }
  utf8Write text := text.map UInt16.toUInt8
  utf8Read data := data.map UInt8.toUInt16

/-- User 7 is online and has been sent message 1. -/
def sampleSession : List GatewayEvent :=
  [.attach 7, .imConnect 0 1000,
   .imData 0 1000
     (MessageCodec.encode Envelope.serializeToString sampleResponse),
   .resume 0,
   .imData 0 1000 (MessageCodec.encode Envelope.serializeToString samplePush)]

theorem sampleRuntime_fits (object : EnvelopeObject) :
    (sampleRuntime.protobufjs.encode object).length < 2 ^ 32 := by
  have hall : ∀ x ∈ sampleEnvelopes,
      (x.serializeToString.getD []).length < 2 ^ 32 := by
    decide
  simp only [sampleRuntime]
  cases hfind : sampleEnvelopes.find? fun x => x.toObject = object with
  | none => simp
  | some x => exact hall x (List.mem_of_find?_eq_some hfind)

/-- While the connection stands, message 1 can be acknowledged. -/
theorem handleMessage_returns_sampleAck :
    ∃ (e : GatewayRun sampleRuntime) (s : Session),
      e.state.sessions 0 = some s ∧ s.client.pushSeqByMsgId 1 = some 1 ∧
      s.Harmless sampleRuntime (.buffer sampleAck) ∧
      (Session.handleMessage sampleRuntime 1000
        (.buffer sampleAck)).Returns s := by
  obtain ⟨e, hstate⟩ := exists_gatewayRun sampleRuntime sampleSession
  have hsession : (e.state.sessions 0).any (fun s =>
      s.client.pushSeqByMsgId 1 = some 1 && s.client.connected &&
        s.client.hasSocket) = true := by
    rw [hstate]
    decide +kernel
  obtain ⟨s, hs, hsession⟩ := (Option.any_eq_true _ _).mp hsession
  simp only [Bool.and_eq_true, decide_eq_true_eq] at hsession
  have hiff := (handleMessage_returns_iff sampleRuntime
    (fun _ _ _ => sampleRuntime_fits _) e hs 1000 (.buffer sampleAck)).1
  have hharmless : s.Harmless sampleRuntime (.buffer sampleAck) := by
    intro message hparse
    cases hparse
    refine ⟨?_, ?_⟩
    · intro hsend
      exact absurd hsend (by decide)
    · intro _
      refine ⟨?_, ?_⟩
      · unfold Convertible
        decide
      · rintro x - ⟨-, -, -, -, hdown⟩
        exact hdown ⟨hsession.1.2, hsession.2⟩
  exact ⟨e, s, hs, hsession.1.1, hharmless, hiff.mpr hharmless⟩

theorem exists_raising {events : List GatewayEvent} {data : RawData}
    {readyState : ReadyState}
    (h : (((gatewayDriver sampleRuntime).follow {} events).sessions 0).any
      (fun s => s.readyState = readyState &&
        !((Session.handleMessage sampleRuntime 1000 data).exec s).1.isOk) =
      true) :
    ∃ (e : GatewayRun sampleRuntime) (s : Session),
      e.state.sessions 0 = some s ∧ s.readyState = readyState ∧
      ¬(Session.handleMessage sampleRuntime 1000 data).Returns s := by
  obtain ⟨e, hstate⟩ := exists_gatewayRun sampleRuntime events
  rw [← hstate] at h
  obtain ⟨s, hs, hsession⟩ := (Option.any_eq_true _ _).mp h
  simp only [Bool.and_eq_true, decide_eq_true_eq] at hsession
  refine ⟨e, s, hs, hsession.1, ?_⟩
  rintro ⟨a, hreturns⟩
  rw [hreturns] at hsession
  cases hsession.2

/-- Once the server has closed the connection, the acknowledgement of message 1
raises an exception; so does, at any time, a receiver that cannot be
converted. -/
theorem handleMessage_raises :
    (∃ (e : GatewayRun sampleRuntime) (s : Session),
      e.state.sessions 0 = some s ∧ s.readyState = .closing ∧
      ¬(Session.handleMessage sampleRuntime 1000
        (.buffer sampleAck)).Returns s) ∧
    ∃ (e : GatewayRun sampleRuntime) (s : Session),
      e.state.sessions 0 = some s ∧ s.readyState = .open ∧
      ¬(Session.handleMessage sampleRuntime 1000
        (.buffer sampleSend)).Returns s := by
  constructor
  · exact @exists_raising (sampleSession ++ [.imClose 0]) _ _ (by decide +kernel)
  · exact @exists_raising [.attach 7] _ _ (by decide +kernel)

end ReliableDelivery
