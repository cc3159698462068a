import ReliableDelivery.Gateway.WebSocketServer

/-!
# What an event does to the gateway

Most events run code of one session, which leaves the tables alone.  The others
take a session out of the tables and close its client, or put it in, in the
place of an older one.  `GatewayState.Effect` says this once; what holds of every
run is derived from it.
-/

namespace ReliableDelivery

open Decimal Ecmascript TransitionSystem

/-- The sequence number, the `msg_id` and the outcome that `handleAck` reads. -/
def EnvelopeObject.acked (envelope : EnvelopeObject) : ℕ × ℕ × Bool :=
  match envelope.payload with
  | some (.ack msgId seq ok _) => (seq, msgId, ok)
  | _ => (0, 0, false)

namespace Session

/-! ## The code of a session -/

/-- The state after a frame for the browser. -/
def send (frame : BrowserFrame) (s : Session) : Session :=
  if s.isOpen then { s with sent := s.sent ++ [frame] } else s

/-- The state after an envelope for the server. -/
def wrote (envelope : EnvelopeObject) (s : Session) : Session :=
  { s with written := s.written ++ [envelope] }

/-- A sequence number is taken. -/
def numbered (s : Session) : Session :=
  { s with client := { s.client with nextSeq := s.client.nextSeq + 1 } }

/-- The next sequence number is taken for a message of the browser. -/
def expecting (clientMsgId : Text) (s : Session) : Session :=
  { s with
    client := { s.client with
      nextSeq := s.client.nextSeq + 1
      pendingSends :=
        Function.update s.client.pendingSends s.client.nextSeq
          (some clientMsgId) } }

/-- The send with the given sequence number is no longer pending. -/
def settled (seq : ℕ) (s : Session) : Session :=
  { s with
    client := { s.client with
      pendingSends := Function.update s.client.pendingSends seq none } }

/-- The number of the push of a message is written down, or crossed out. -/
def noted (msgId : ℕ) (seq : Option ℕ) (s : Session) : Session :=
  { s with
    client := { s.client with
      pushSeqByMsgId := Function.update s.client.pushSeqByMsgId msgId seq } }

/-- The state after a push that has not been passed on yet. -/
def pushed (envelope : EnvelopeObject) (s : Session) : Session :=
  match envelope.payload with
  | some (.chatPush msgId _ _ _ _ history) =>
      if history then s else s.noted msgId (some envelope.seq)
  | _ => s.noted 0 (some envelope.seq)

/-- The state after `close`. -/
def shut (s : Session) : Session :=
  if s.isOpen then { s with readyState := .closing } else s

/-- The state after the client is closed. -/
def disconnected (s : Session) : Session :=
  if s.client.hasSocket then
    { s with
      client := { s.client with hasSocket := false, connected := false }
      socket := if s.socket = .closed then .closed else .destroyed }
  else s

/-- The state after the session's part of `cleanupSession`. -/
def dropped (s : Session) : Session :=
  if s.registered then { s with registered := false }.disconnected else s

variable {R : Runtime} {s : Session}

theorem isText_unique {value : Option Json} {a b : Text}
    (ha : isText value a = true) (hb : isText value b = true) :
    a = b := by
  unfold isText at ha hb
  split at ha
  · simp only [decide_eq_true_eq] at ha hb
    rw [← ha, hb]
  · cases ha

theorem exec_sendJson (frame : BrowserFrame) :
    (sendJson frame).exec s = (.ok (), s.send frame) :=
  rfl

theorem exec_close (reason : Text) :
    ((close R reason).exec s).2 = s.shut := by
  rw [close, Js.exec_bind, Js.exec_get, shut]
  dsimp only
  split
  · rw [Js.exec_bind, Js.exec_set]
    dsimp only
    split
    · rfl
    · rfl
  · rfl

theorem shut_isOpen (s : Session) : s.shut.isOpen = false := by
  rw [shut]
  split
  · rfl
  · next h => exact Bool.not_eq_true _ ▸ h

theorem exec_modifyClient (f : ImClient → ImClient) :
    (modifyClient f).exec s = (.ok (), { s with client := f s.client }) :=
  rfl

/-- An envelope is written, or an exception leaves everything as it was. -/
theorem exec_sendEnvelope (R : Runtime) (s : Session)
    (envelope : EnvelopeObject) :
    (sendEnvelope R envelope).exec s = (.ok (), s.wrote envelope) ∨
      ∃ error, (sendEnvelope R envelope).exec s = (.error error, s) := by
  rw [sendEnvelope, Js.exec_bind, Js.exec_get]
  dsimp only
  split
  · exact .inr ⟨_, rfl⟩
  · cases ImProtocol.encode R.protobufjs envelope with
    | error message => exact .inr ⟨_, rfl⟩
    | ok bytes => exact .inl rfl

/-- The CHAT_REQ with the next sequence number. -/
def chatRequest (R : Runtime) (now toUid : ℕ) (content clientMsgId : Text)
    (s : Session) : EnvelopeObject where
  type := 3
  seq := s.client.nextSeq
  timestampMs := now
  payload := some (.chatReq s.uid toUid (R.utf8Write content)
    (R.utf8Write clientMsgId))

/-- The acknowledgement of the push with the given sequence number. -/
def ackEnvelope (now msgId seq : ℕ) : EnvelopeObject where
  type := 5
  seq := seq
  timestampMs := now
  payload := some (.ack msgId seq true [])

theorem exec_sendChat (now toUid : ℕ) (content clientMsgId : Text) :
    (sendChat R now toUid content clientMsgId).exec s =
      (sendEnvelope R (s.chatRequest R now toUid content clientMsgId)).exec
        (s.expecting clientMsgId) :=
  rfl

/-- The LOGIN_REQ with the next sequence number. -/
def loginRequest (now : ℕ) (s : Session) : EnvelopeObject where
  type := 1
  seq := s.client.nextSeq
  timestampMs := now
  payload := some (.loginReq s.uid)

/-- The state after the first lines of the connect event. -/
def connected (s : Session) : Session :=
  { s with
    socket := .open
    client := { s.client with
      connected := true
      nextSeq := s.client.nextSeq + 1 } }

theorem exec_handleConnect (now : ℕ) :
    Js.exec (do
      modify fun s => { s with socket := .open }
      handleConnect R now) s =
      (sendEnvelope R (s.loginRequest now)).exec s.connected :=
  rfl

/-- A message of the browser is refused or goes to the server; it takes a
sequence number unless it is refused at once. -/
theorem exec_handleSendMessage (now : ℕ) (message : BrowserMessage) :
    ((handleSendMessage R now message).exec s).2 = s ∨
      ∃ clientMsgId,
        toTextOrEmpty R.engine (property (ascii "client_msg_id") message) =
          .ok clientMsgId ∧
        ((∃ reason s₁, (s₁ = s ∨ s₁ = s.expecting clientMsgId) ∧
            ((handleSendMessage R now message).exec s).2 =
              s₁.send (.sendAck false clientMsgId 0 reason)) ∨
          ∃ toUid content, ((handleSendMessage R now message).exec s).2 =
            (s.expecting clientMsgId).wrote
              (s.chatRequest R now toUid content clientMsgId)) := by
  rw [handleSendMessage, Js.exec_bind, Js.exec_get]
  dsimp only
  rw [Js.exec_bind]
  cases toNumber R.engine (property (ascii "to_uid") message) with
  | error e => exact .inl rfl
  | ok toUid =>
      dsimp only [Js.ofExcept, Js.exec_pure]
      rw [Js.exec_bind]
      cases toTextOrEmpty R.engine (property (ascii "content") message) with
      | error e => exact .inl rfl
      | ok content =>
          dsimp only [Js.ofExcept, Js.exec_pure]
          rw [Js.exec_bind]
          cases toTextOrEmpty R.engine
              (property (ascii "client_msg_id") message) with
          | error e => exact .inl rfl
          | ok clientMsgId =>
              refine .inr ⟨clientMsgId, rfl, ?_⟩
              dsimp only [Js.ofExcept, Js.exec_pure]
              repeat' split
              · exact .inl ⟨_, s, .inl rfl, rfl⟩
              · exact .inl ⟨_, s, .inl rfl, rfl⟩
              · exact .inl ⟨_, s, .inl rfl, rfl⟩
              · exact .inl ⟨_, s, .inl rfl, rfl⟩
              · rw [Js.exec_tryCatch, exec_sendChat]
                rcases exec_sendEnvelope R (s.expecting clientMsgId)
                    (s.chatRequest R now toUid.toNat (trim content)
                      clientMsgId) with hsend | ⟨error, hsend⟩
                · rw [hsend]
                  exact .inr ⟨_, _, rfl⟩
                · rw [hsend]
                  exact .inl ⟨_, _, .inr rfl, rfl⟩

theorem exec_ackMessage {msgId seq : ℕ} (now : ℕ)
    (hseq : s.client.pushSeqByMsgId msgId = some seq) :
    (ackMessage R now msgId).exec s =
      Js.exec (do
        sendEnvelope R (ackEnvelope now msgId seq)
        pure true) (s.noted msgId none) := by
  rw [ackMessage, Js.exec_bind, Js.exec_get]
  dsimp only
  rw [hseq]
  rfl

/-- A known push is crossed out and acknowledged, unless an exception comes in
between; an unknown one is reported. -/
theorem exec_handleMessageAck (now : ℕ) (message : BrowserMessage) :
    ((handleMessageAck R now message).exec s).2 = s ∧
        (s.registered = true → ∀ x,
          toNumber R.engine (property (ascii "msg_id") message) = .ok x →
          ¬(x.isInteger = true ∧ x.nonpositive = false)) ∨
      ∃ x, toNumber R.engine (property (ascii "msg_id") message) = .ok x ∧
        x.isInteger = true ∧ x.nonpositive = false ∧ s.registered = true ∧
        (s.client.pushSeqByMsgId x.toNat = none ∧
            ((handleMessageAck R now message).exec s).2 =
              s.send (.error (ascii "cannot ack unknown msg_id " ++
                R.engine.numberToString x)) ∨
          ∃ seq, s.client.pushSeqByMsgId x.toNat = some seq ∧
            (((handleMessageAck R now message).exec s).2 =
                s.noted x.toNat none ∨
              ((handleMessageAck R now message).exec s).2 =
                (s.noted x.toNat none).wrote
                  (ackEnvelope now x.toNat seq))) := by
  rw [handleMessageAck, Js.exec_bind, Js.exec_get]
  dsimp only
  rw [Js.exec_bind]
  cases toNumber R.engine (property (ascii "msg_id") message) with
  | error e => exact .inl ⟨rfl, fun _ x hx => by cases hx⟩
  | ok x =>
      dsimp only [Js.ofExcept, Js.exec_pure]
      split
      · next hskip =>
          refine .inl ⟨rfl, fun hregistered x' hx hvalid => ?_⟩
          cases hx
          simp [hregistered, hvalid] at hskip
      · next hack =>
          simp only [not_or, Bool.not_eq_false, Bool.not_eq_true] at hack
          refine .inr ⟨x, rfl, hack.2.1, hack.2.2, hack.1, ?_⟩
          rw [Js.exec_bind]
          cases hseq : s.client.pushSeqByMsgId x.toNat with
          | none =>
              rw [ackMessage, Js.exec_bind, Js.exec_get]
              dsimp only
              rw [hseq]
              exact .inl ⟨rfl, rfl⟩
          | some seq =>
              refine .inr ⟨seq, rfl, ?_⟩
              rw [exec_ackMessage now hseq, Js.exec_bind]
              rcases exec_sendEnvelope R (s.noted x.toNat none)
                  (ackEnvelope now x.toNat seq) with hsend | ⟨error, hsend⟩
              · rw [hsend]
                exact .inr rfl
              · rw [hsend]
                exact .inl rfl

/-- An acknowledgement settles the pending send with its number. -/
theorem exec_handleAck (envelope : EnvelopeObject) :
    s.client.pendingSends envelope.acked.1 = none ∧
        (handleAck R envelope).exec s = (.ok (), s) ∨
      ∃ clientMsgId reason,
        s.client.pendingSends envelope.acked.1 = some clientMsgId ∧
        (handleAck R envelope).exec s =
          (.ok (), (s.settled envelope.acked.1).send
            (.sendAck envelope.acked.2.2 clientMsgId envelope.acked.2.1
              reason)) := by
  have hack : ∀ (type : ℤ) (envelopeSeq timestampMs msgId seq : ℕ)
      (ok : Bool) (reason : Bytes) (p : Js Session Unit),
      p = handleAck R
        ⟨type, envelopeSeq, timestampMs, some (.ack msgId seq ok reason)⟩ →
      s.client.pendingSends seq = none ∧ p.exec s = (.ok (), s) ∨
        ∃ clientMsgId reason, s.client.pendingSends seq = some clientMsgId ∧
          p.exec s = (.ok (), (s.settled seq).send
            (.sendAck ok clientMsgId msgId reason)) := by
    intro type envelopeSeq timestampMs msgId seq ok reason p hp
    subst hp
    rw [handleAck, Js.exec_bind, Js.exec_get]
    dsimp only
    cases s.client.pendingSends seq with
    | none => exact .inl ⟨rfl, rfl⟩
    | some clientMsgId => exact .inr ⟨_, _, rfl, rfl⟩
  obtain ⟨type, seq, timestampMs, payload⟩ := envelope
  rcases payload with _ | payload
  · exact hack type seq timestampMs 0 0 false [] _ rfl
  · cases payload with
    | ack msgId ackSeq ok reason =>
        exact hack type seq timestampMs msgId ackSeq ok reason _ rfl
    | _ => exact hack type seq timestampMs 0 0 false [] _ rfl

/-- A push is noted, unless it is history, and passed on. -/
theorem exec_handleChatPush (now : ℕ) (envelope : EnvelopeObject) :
    ∃ msgId fromUid toUid content serverTimestampMs history,
      (handleChatPush R now envelope).exec s =
        (.ok (), (s.pushed envelope).send
          (.message msgId fromUid toUid content serverTimestampMs history)) := by
  obtain ⟨type, seq, timestampMs, payload⟩ := envelope
  rcases payload with _ | payload
  · exact ⟨_, _, _, _, _, _, rfl⟩
  · cases payload with
    | chatPush msgId fromUid toUid content serverTimestampMs history =>
        cases history with
        | true => exact ⟨_, _, _, _, _, _, rfl⟩
        | false => exact ⟨_, _, _, _, _, _, rfl⟩
    | _ => exact ⟨_, _, _, _, _, _, rfl⟩

/-! ## What the code leaves as it is -/

/-- The client is closed when it has been taken out of its table, and a client
that is closed has no connection. -/
def Coherent (s : Session) : Prop :=
  (s.registered = false → s.client.hasSocket = false) ∧
  (s.client.hasSocket = false →
    s.client.connected = false ∧ (s.socket = .destroyed ∨ s.socket = .closed))

/-- What was sent stays sent. -/
def Outputs (s s' : Session) : Prop :=
  s.sent <+: s'.sent ∧ s.written <+: s'.written

theorem outputs_refl (s : Session) : s.Outputs s :=
  ⟨List.prefix_refl _, List.prefix_refl _⟩

/-- The promise of the login is settled when nobody waits for it any more. -/
def Settled (s : Session) : Prop :=
  s.client.loginPending = false → s.attach ≠ .awaiting

/-- The session belongs to the same user; what was closed or taken out of a table
stays so, and a login is settled once. -/
structure Onward (s s' : Session) : Prop where
  uid : s'.uid = s.uid
  closing : s.isOpen = false → s'.isOpen = false
  closed : s.readyState = .closed → s'.readyState = .closed
  registered : s.registered = false → s'.registered = false
  hasSocket : s.client.hasSocket = false → s'.client.hasSocket = false
  coherent : s.Coherent → s'.Coherent
  outputs : s.Outputs s'
  answered : s.client.loginPending = false → s'.client.loginPending = false
  settled : s.Settled → s'.Settled

instance : IsPreorder Session Onward where
  refl s := ⟨rfl, id, id, id, id, id, s.outputs_refl, id, id⟩
  trans _ _ _ h h' :=
    ⟨h'.uid.trans h.uid, h'.closing ∘ h.closing, h'.closed ∘ h.closed,
      h'.registered ∘ h.registered, h'.hasSocket ∘ h.hasSocket,
      h'.coherent ∘ h.coherent,
      ⟨h.outputs.1.trans h'.outputs.1, h.outputs.2.trans h'.outputs.2⟩,
      h'.answered ∘ h.answered, h'.settled ∘ h.settled⟩

theorem Onward.isOpen_of {s s' : Session} (h : s.Onward s')
    (hopen : s'.isOpen = true) : s.isOpen = true := by
  by_contra hclosed
  rw [h.closing (Bool.not_eq_true _ ▸ hclosed)] at hopen
  cases hopen

theorem Onward.registered_of {s s' : Session} (h : s.Onward s')
    (hregistered : s'.registered = true) : s.registered = true := by
  by_contra hout
  rw [h.registered (Bool.not_eq_true _ ▸ hout)] at hregistered
  cases hregistered

/-- What the code of a session does, `attachSession` and the close event of the
WebSocket apart.  When the connection to the server closes, so does the
session. -/
structure Works (s s' : Session) : Prop extends Onward s s' where
  finished : s'.attach = .done → s.attach = .done
  shut : s'.readyState = .closed → s.readyState = .closed
  parted : s'.socket = .closed → s.socket = .closed ∨ s'.isOpen = false

instance : IsPreorder Session Works where
  refl s := ⟨refl_of Onward s, id, id, .inl⟩
  trans _ _ _ h h' :=
    ⟨trans_of Onward h.toOnward h'.toOnward, h.finished ∘ h'.finished,
      h.shut ∘ h'.shut, fun hclosed => (h'.parted hclosed).elim
        (fun hclosed => (h.parted hclosed).imp_right h'.closing) .inr⟩

theorem works_send (frame : BrowserFrame) (s : Session) :
    s.Works (s.send frame) := by
  rw [send]
  split
  · exact ⟨⟨rfl, id, id, id, id, id, ⟨List.prefix_append _ _,
      List.prefix_refl _⟩, id, id⟩, id, id, .inl⟩
  · exact refl_of Works s

theorem works_shut (s : Session) : s.Works s.shut := by
  rw [shut]
  split
  · next hopen =>
      have hready : s.readyState = .open := of_decide_eq_true hopen
      refine ⟨⟨rfl, fun _ => rfl, ?_, id, id, id, s.outputs_refl, id, id⟩, id, ?_,
        .inl⟩
      · intro hclosed
        rw [hready] at hclosed
        cases hclosed
      · intro hclosed
        cases hclosed
  · exact refl_of Works s

theorem works_disconnected (s : Session) : s.Works s.disconnected := by
  rw [disconnected]
  split
  · next hsocket =>
      refine ⟨⟨rfl, id, id, id, fun _ => rfl,
        fun _ => ⟨fun _ => rfl, fun _ => ⟨rfl, ?_⟩⟩, s.outputs_refl, id, id⟩,
        id, id, ?_⟩
      · by_cases hclosed : s.socket = .closed
        · exact .inr (if_pos hclosed)
        · exact .inl (if_neg hclosed)
      · intro hclosed
        left
        by_contra hother
        cases (if_neg hother).symm.trans hclosed
  · exact refl_of Works s

@[simp] theorem disconnected_hasSocket (s : Session) :
    s.disconnected.client.hasSocket = false := by
  rw [disconnected]
  split
  · rfl
  · next hnone => exact Bool.not_eq_true _ ▸ hnone

theorem disconnected_registered (s : Session) :
    s.disconnected.registered = s.registered := by
  rw [disconnected]
  split
  · rfl
  · rfl

theorem dropped_registered (s : Session) : s.dropped.registered = false := by
  rw [dropped]
  split
  · exact disconnected_registered _
  · next hnone => exact Bool.not_eq_true _ ▸ hnone

theorem onward_dropped (s : Session) : s.Onward s.dropped := by
  rw [dropped]
  split
  · have hclosed := (works_disconnected { s with registered := false }).toOnward
    refine ⟨hclosed.uid, hclosed.closing, hclosed.closed,
      fun _ => disconnected_registered _, fun _ => disconnected_hasSocket _, ?_,
      hclosed.outputs, hclosed.answered, hclosed.settled⟩
    intro hcoherent
    refine ⟨fun _ => disconnected_hasSocket _, ?_⟩
    have hdown := (works_disconnected s).coherent hcoherent
    rw [disconnected] at hdown ⊢
    dsimp only
    split at hdown
    · next hsocket =>
        rw [if_pos hsocket]
        exact hdown.2
    · next hsocket =>
        rw [if_neg hsocket]
        exact hdown.2
  · exact refl_of Onward s

theorem within_modifyClient {f : ImClient → ImClient}
    (hsocket : ∀ c, (f c).hasSocket = c.hasSocket)
    (hconnected : ∀ c, c.connected = false → (f c).connected = false)
    (hlogin : ∀ c, (f c).loginPending = c.loginPending) :
    Js.Within Works (modifyClient f) := by
  intro s
  refine ⟨⟨rfl, id, id, id, (hsocket s.client).trans, ?_, s.outputs_refl,
    (hlogin s.client).trans, fun h hdone => h ((hlogin s.client).symm.trans hdone)⟩,
    id, id, .inl⟩
  intro hcoherent
  refine ⟨fun hout => (hsocket s.client).trans (hcoherent.1 hout), ?_⟩
  intro hnone
  obtain ⟨hdown, hdead⟩ :=
    hcoherent.2 ((hsocket s.client).symm.trans hnone)
  exact ⟨hconnected s.client hdown, hdead⟩

theorem within_sendJson (frame : BrowserFrame) :
    Js.Within Works (sendJson frame) :=
  works_send frame

theorem within_close (reason : Text) : Js.Within Works (close R reason) := by
  intro s
  rw [exec_close]
  exact works_shut s

theorem within_closeClient : Js.Within Works closeClient :=
  works_disconnected

theorem within_sendEnvelope (envelope : EnvelopeObject) :
    Js.Within Works (sendEnvelope R envelope) := by
  intro s
  rcases exec_sendEnvelope R s envelope with hsend | ⟨error, hsend⟩
  · rw [hsend]
    exact ⟨⟨rfl, id, id, id, id, id, ⟨List.prefix_refl _,
      List.prefix_append _ _⟩, id, id⟩, id, id, .inl⟩
  · rw [hsend]
    exact refl_of Works s

theorem within_sendChat (now toUid : ℕ) (content clientMsgId : Text) :
    Js.Within Works (sendChat R now toUid content clientMsgId) := by
  intro s
  rw [exec_sendChat]
  have hfirst : s.Works (s.expecting clientMsgId) :=
    ⟨⟨rfl, id, id, id, id, id, s.outputs_refl, id, id⟩, id, id, .inl⟩
  exact trans_of Works hfirst (within_sendEnvelope _ _)

theorem within_ackMessage (now msgId : ℕ) :
    Js.Within Works (ackMessage R now msgId) := by
  apply Js.within_get_bind
  intro s
  split
  · exact refl_of Works s
  · have hclient : Js.Within Works (modifyClient fun c =>
        { c with
          pushSeqByMsgId := Function.update c.pushSeqByMsgId msgId none }) :=
      within_modifyClient (fun _ => rfl) (fun _ => id) fun _ => rfl
    exact (hclient.bind fun _ =>
      (within_sendEnvelope _).bind fun _ => Js.within_pure true) s

theorem within_settleLogin {outcome : Attach} (hsettled : outcome ≠ .awaiting)
    (hdone : outcome ≠ .done) : Js.Within Works (settleLogin outcome) := by
  intro s
  change s.Works (if s.client.loginPending then _ else s)
  split
  · refine ⟨⟨rfl, id, id, id, id, id, s.outputs_refl, fun _ => rfl,
      fun _ _ => hsettled⟩, ?_, id, .inl⟩
    intro heq
    exact absurd heq hdone
  · exact refl_of Works s

theorem within_rejectPendingLogin (reason : Text) :
    Js.Within Works (rejectPendingLogin reason) :=
  within_settleLogin nofun nofun

theorem within_handleLoginResponse (envelope : EnvelopeObject) :
    Js.Within Works (handleLoginResponse R envelope) := by
  rw [handleLoginResponse]
  split
  · exact within_settleLogin nofun nofun
  · exact within_settleLogin nofun nofun
  · exact within_settleLogin nofun nofun

theorem works_noted (msgId : ℕ) (seq : Option ℕ) (s : Session) :
    s.Works (s.noted msgId seq) :=
  ⟨⟨rfl, id, id, id, id, id, s.outputs_refl, id, id⟩, id, id, .inl⟩

theorem works_pushed (envelope : EnvelopeObject) (s : Session) :
    s.Works (s.pushed envelope) := by
  rw [pushed]
  split
  · split
    · exact refl_of Works s
    · exact works_noted _ _ s
  · exact works_noted _ _ s

theorem within_handleAck (envelope : EnvelopeObject) :
    Js.Within Works (handleAck R envelope) := by
  intro s
  rcases exec_handleAck envelope with ⟨-, hexec⟩ | ⟨clientMsgId, reason, -, hexec⟩
  · rw [hexec]
    exact refl_of Works s
  · rw [hexec]
    have hfirst : s.Works (s.settled envelope.acked.1) :=
      ⟨⟨rfl, id, id, id, id, id, s.outputs_refl, id, id⟩, id, id, .inl⟩
    exact trans_of Works hfirst (works_send _ _)

theorem within_handleChatPush (now : ℕ) (envelope : EnvelopeObject) :
    Js.Within Works (handleChatPush R now envelope) := by
  intro s
  obtain ⟨_, _, _, _, _, _, hexec⟩ := exec_handleChatPush now envelope
  rw [hexec]
  exact trans_of Works (works_pushed envelope s) (works_send _ _)

theorem within_handleEnvelope (now : ℕ) (envelope : EnvelopeObject) :
    Js.Within Works (handleEnvelope R now envelope) := by
  rw [handleEnvelope]
  split
  · exact within_handleLoginResponse _
  · split
    · exact within_handleAck _
    · split
      · exact within_handleChatPush now _
      · exact Js.within_pure ()

theorem within_handleEnvelopes (now : ℕ) (envelopes : List EnvelopeObject) :
    Js.Within Works (handleEnvelopes R now envelopes) := by
  induction envelopes with
  | nil => exact Js.within_pure ()
  | cons envelope envelopes ih =>
      exact (within_handleEnvelope now envelope).bind fun _ => ih

theorem within_handleImError (reason : Text) :
    Js.Within Works (handleImError reason) := by
  apply Js.within_get_bind
  intro s
  split
  · exact within_sendJson _ s
  · exact refl_of Works s

theorem within_handleError (reason : Text) :
    Js.Within Works (handleError reason) :=
  (within_rejectPendingLogin reason).bind fun _ => within_handleImError reason

theorem within_handleImClose (reason : Text) :
    Js.Within Works (handleImClose R reason) := by
  apply Js.within_get_bind
  intro s
  split
  · exact ((within_sendJson _).bind fun _ => within_close reason) s
  · exact refl_of Works s

/-- When its connection to the server closes, a session closes. -/
theorem handleClose_isOpen (reason : Text) (s : Session) :
    ((handleClose R reason).exec s).2.isOpen = false := by
  have himClose : ∀ s : Session,
      ((handleImClose R reason).exec s).2.isOpen = false := by
    intro s
    rw [handleImClose, Js.exec_bind, Js.exec_get]
    dsimp only
    split
    · rw [Js.exec_bind, exec_sendJson]
      dsimp only
      rw [exec_close]
      exact shut_isOpen _
    · next hclosed => exact Bool.not_eq_true _ ▸ hclosed
  rw [handleClose, Js.exec_bind, exec_modifyClient]
  exact himClose _

theorem within_handleClose (reason : Text) :
    Js.Within Works (handleClose R reason) := by
  refine (within_modifyClient ?_ ?_ ?_).bind fun _ =>
    (within_rejectPendingLogin reason).bind fun _ => within_handleImClose reason
  · exact fun _ => rfl
  · exact fun _ _ => rfl
  · exact fun _ => rfl

theorem within_handleData (now : ℕ) (chunk : Bytes) :
    Js.Within Works (handleData R now chunk) := by
  apply Js.within_get_bind
  intro s
  refine ((within_modifyClient ?_ ?_ ?_).bind fun _ => ?_) s
  · exact fun _ => rfl
  · exact fun _ => id
  · exact fun _ => rfl
  · split
    · exact (within_handleError _).bind fun _ => within_closeClient
    · refine (within_modifyClient ?_ ?_ ?_).bind fun _ =>
        within_handleEnvelopes now _
      · exact fun _ => rfl
      · exact fun _ => id
      · exact fun _ => rfl

theorem within_handleSendMessage (now : ℕ) (message : BrowserMessage) :
    Js.Within Works (handleSendMessage R now message) := by
  apply Js.within_get_bind
  intro s
  refine ((Js.within_ofExcept _).bind fun toUid => (Js.within_ofExcept _).bind
    fun content => (Js.within_ofExcept _).bind fun clientMsgId => ?_) s
  repeat' split
  · exact within_sendJson _
  · exact within_sendJson _
  · exact within_sendJson _
  · exact within_sendJson _
  · exact (within_sendChat _ _ _ _).tryCatch fun _ => within_sendJson _

theorem within_handleMessageAck (now : ℕ) (message : BrowserMessage) :
    Js.Within Works (handleMessageAck R now message) := by
  apply Js.within_get_bind
  intro s
  refine ((Js.within_ofExcept _).bind fun msgId => ?_) s
  split
  · exact Js.within_pure ()
  · refine (within_ackMessage now _).bind fun known => ?_
    split
    · exact within_sendJson _
    · exact Js.within_pure ()

theorem within_handleMessage (now : ℕ) (data : RawData) :
    Js.Within Works (handleMessage R now data) := by
  rw [handleMessage]
  repeat' split
  · exact within_sendJson _
  · exact within_handleSendMessage now _
  · exact within_handleMessageAck now _
  · exact within_sendJson _
  · exact within_sendJson _

end Session

/-! ## Events -/

/-- The code of the events that leave the tables alone. -/
def GatewayEvent.code (R : Runtime) : GatewayEvent → Option (Js Session Unit)
  | .imConnect _ now => some do
      modify fun s => { s with socket := .open }
      Session.handleConnect R now
  | .imData _ now chunk => some (Session.handleData R now chunk)
  | .imError _ reason => some do
      modify fun s => { s with socket := .destroyed }
      Session.handleError reason
  | .imClose _ => some do
      modify fun s => { s with socket := .closed }
      Session.handleClose R (ascii "IMServer connection closed")
  | .wsMessage _ now data => some (Session.handleMessage R now data)
  | .wsClosing _ => some (modify fun s => { s with readyState := .closing })
  | _ => none

namespace Session

/-- The session when the code comes to `cleanupSession`. -/
def leaving (s : Session) : GatewayEvent → Session
  | .wsError _ => { s with readyState := .closing }
  | .wsClose _ => { s with readyState := .closed }
  | .resume _ =>
      match s.attach with
      | .rejected reason =>
          (send (.error reason) { s with attach := .done }).shut
      | _ => { s with attach := .done }
  | _ => s

variable {R : Runtime} {s : Session}

theorem works_code {event : GatewayEvent} {p : Js Session Unit}
    (hcode : event.code R = some p) (henabled : s.enabled event = true) :
    s.Works (p.exec s).2 := by
  cases event with
  | imConnect n now =>
      cases hcode
      have hconnecting : s.socket = .connecting := of_decide_eq_true henabled
      have hfirst : s.Works s.connected := by
        refine ⟨⟨rfl, id, id, id, id, ?_, s.outputs_refl, id, id⟩, id, id, nofun⟩
        intro hcoherent
        refine ⟨hcoherent.1, fun hnone => ?_⟩
        rcases (hcoherent.2 hnone).2 with hsocket | hsocket
        · rw [hconnecting] at hsocket
          cases hsocket
        · rw [hconnecting] at hsocket
          cases hsocket
      rw [exec_handleConnect]
      exact trans_of Works hfirst (within_sendEnvelope _ _)
  | imData n now chunk =>
      cases hcode
      exact within_handleData now chunk s
  | imError n reason =>
      cases hcode
      have hfirst : s.Works { s with socket := .destroyed } := by
        refine ⟨⟨rfl, id, id, id, id, ?_, s.outputs_refl, id, id⟩, id, id, nofun⟩
        exact fun hcoherent => ⟨hcoherent.1,
          fun hnone => ⟨(hcoherent.2 hnone).1, .inl rfl⟩⟩
      exact trans_of Works hfirst (within_handleError reason _)
  | imClose n =>
      cases hcode
      have hfirst : s.Onward { s with socket := .closed } := by
        refine ⟨rfl, id, id, id, id, ?_, s.outputs_refl, id, id⟩
        exact fun hcoherent => ⟨hcoherent.1,
          fun hnone => ⟨(hcoherent.2 hnone).1, .inr rfl⟩⟩
      have hrest := within_handleClose (R := R)
        (ascii "IMServer connection closed") { s with socket := .closed }
      exact ⟨trans_of Onward hfirst hrest.toOnward, hrest.finished, hrest.shut,
        fun _ => .inr (handleClose_isOpen _ _)⟩
  | wsMessage n now data =>
      cases hcode
      exact within_handleMessage now data s
  | wsClosing n =>
      cases hcode
      have hopen : s.readyState = .open := of_decide_eq_true henabled
      refine ⟨⟨rfl, fun _ => rfl, ?_, id, id, id, s.outputs_refl, id, id⟩, id, ?_,
        .inl⟩
      · intro hclosed
        rw [hopen] at hclosed
        cases hclosed
      · intro hclosed
        cases hclosed
  | attach uid => cases hcode
  | wsError n => cases hcode
  | wsClose n => cases hcode
  | resume n => cases hcode

theorem onward_code {event : GatewayEvent} {p : Js Session Unit}
    (hcode : event.code R = some p) (henabled : s.enabled event = true) :
    s.Onward (p.exec s).2 :=
  (works_code hcode henabled).toOnward

theorem onward_leaving {event : GatewayEvent}
    (henabled : s.enabled event = true) : s.Onward (s.leaving event) := by
  cases event with
  | wsError n =>
      have hopen : s.readyState ≠ .closed := of_decide_eq_true henabled
      exact ⟨rfl, fun _ => rfl, fun hclosed => absurd hclosed hopen, id, id,
        id, s.outputs_refl, id, id⟩
  | wsClose n =>
      have hopen : s.readyState ≠ .closed := of_decide_eq_true henabled
      exact ⟨rfl, fun _ => rfl, fun _ => rfl, id, id, id, s.outputs_refl, id, id⟩
  | resume n =>
      have hfirst : s.Onward { s with attach := .done } :=
        ⟨rfl, id, id, id, id, id, s.outputs_refl, id, fun _ _ => nofun⟩
      rw [leaving]
      split
      · exact trans_of Onward hfirst
          (trans_of Works (works_send _ _) (works_shut _)).toOnward
      · exact hfirst
  | _ => exact refl_of Onward s

end Session

namespace GatewayState

def put (n : ℕ) (s : Session) (g : GatewayState) : GatewayState :=
  { g with sessions := Function.update g.sessions n (some s) }

/-- The state after `WsSessionManager.remove`. -/
def removed (uid n : ℕ) (g : GatewayState) : GatewayState :=
  { g with
    sessionsByUid :=
      if g.sessionsByUid uid = some n then
        Function.update g.sessionsByUid uid none
      else g.sessionsByUid
    sessionsById := Function.update g.sessionsById n none }

/-- The state after the last lines of `WsSessionManager.add`. -/
def entered (uid n : ℕ) (g : GatewayState) : GatewayState :=
  { g with
    sessionsByUid := Function.update g.sessionsByUid uid (some n)
    sessionsById := Function.update g.sessionsById n (some n) }

/-- What an event leads to. -/
inductive Effect (R : Runtime) (g : GatewayState) :
    GatewayEvent → GatewayState → Prop
  | attach (uid : ℕ) :
      Effect R g (.attach uid)
        { g.put g.nextSession { uid } with nextSession := g.nextSession + 1 }
  /-- Code of the session runs. -/
  | code {event : GatewayEvent} {n : ℕ} {s : Session} {p : Js Session Unit}
      (hn : event.session = some n) (hs : g.sessions n = some s)
      (henabled : s.enabled event = true) (hcode : event.code R = some p) :
      Effect R g event
        { g.put n (p.exec s).2 with
          crashed := g.crashed || !(p.exec s).1.isOk }
  /-- The session is cleaned up. -/
  | cleanup {event : GatewayEvent} {n : ℕ} {s : Session}
      (hn : event.session = some n) (hs : g.sessions n = some s)
      (henabled : s.enabled event = true) (hcode : event.code R = none)
      (hclosed : (s.leaving event).isOpen = false) :
      Effect R g event ((g.put n (s.leaving event).dropped).removed s.uid n)
  /-- The reason of a rejected login does not fit into a close frame. -/
  | fail {n : ℕ} {s : Session} {reason : Text} (hs : g.sessions n = some s)
      (hreason : s.attach = .rejected reason) :
      Effect R g (.resume n)
        { g.put n (s.leaving (.resume n)) with crashed := true }
  /-- The session is put in. -/
  | join {n : ℕ} {s : Session} (hs : g.sessions n = some s)
      (hattach : s.attach = .resolved) (hopen : s.isOpen = true)
      (hold : ∀ old, g.sessionsByUid s.uid = some old → old = n) :
      Effect R g (.resume n)
        ((g.put n ((s.leaving (.resume n)).send (.online s.uid n))).entered
          s.uid n)
  /-- The session is put in the place of another one. -/
  | replace {n old : ℕ} {s s₀ : Session} (hs : g.sessions n = some s)
      (hattach : s.attach = .resolved) (hopen : s.isOpen = true)
      (hold : g.sessionsByUid s.uid = some old) (hne : old ≠ n)
      (hs₀ : g.sessions old = some s₀) :
      Effect R g (.resume n)
        (((g.put n ((s.leaving (.resume n)).send (.online s.uid n))).put old
          s₀.shut).removed s.uid old |>.entered s.uid n)
  /-- Closing the other session raises an exception. -/
  | stuck {n old : ℕ} {s s₀ : Session} (hs : g.sessions n = some s)
      (hattach : s.attach = .resolved) (hopen : s.isOpen = true)
      (hold : g.sessionsByUid s.uid = some old) (hne : old ≠ n)
      (hs₀ : g.sessions old = some s₀) :
      Effect R g (.resume n)
        { ((g.put n (s.leaving (.resume n))).put old s₀.shut).removed s.uid old
          with crashed := true }

variable {R : Runtime} {g : GatewayState} {n : ℕ} {s : Session}

theorem exec_onSession {p : Js Session Unit} (hs : g.sessions n = some s) :
    (onSession n p).exec g = ((p.exec s).1, g.put n (p.exec s).2) := by
  rw [onSession, Js.exec_bind, Js.exec_get]
  dsimp only
  rw [hs]
  dsimp only
  rw [Js.exec_bind, Js.exec_set]
  dsimp only
  cases (p.exec s).1 with
  | error e => rfl
  | ok a => rfl

theorem exec_remove (uid : ℕ) :
    (remove uid n).exec g = (.ok (), g.removed uid n) :=
  rfl

@[simp] theorem put_self (n : ℕ) (s : Session) (g : GatewayState) :
    (g.put n s).sessions n = some s :=
  Function.update_self ..

@[simp] theorem put_put (n : ℕ) (s s' : Session) (g : GatewayState) :
    (g.put n s).put n s' = g.put n s' := by
  simp [put]

theorem put_put_of_ne {old : ℕ} (hne : old ≠ n) (s s' s₀ : Session)
    (g : GatewayState) :
    ((g.put n s).put old s₀).put n s' = (g.put n s').put old s₀ := by
  simp only [put]
  rw [Function.update_comm hne, Function.update_idem]

theorem put_of_ne {m : ℕ} (hne : m ≠ n) (s : Session) (g : GatewayState) :
    (g.put n s).sessions m = g.sessions m :=
  Function.update_of_ne hne ..

theorem exec_cleanupSession (uid : ℕ) (hs : g.sessions n = some s) :
    (cleanupSession uid n).exec g =
      (.ok (), (g.put n s.dropped).removed uid n) := by
  have hs' : (g.removed uid n).sessions n = some s := hs
  rw [cleanupSession, Js.exec_bind, exec_remove]
  dsimp only
  rw [exec_onSession hs', Js.exec_bind, Js.exec_get, Session.dropped]
  dsimp only
  split
  · rw [Js.exec_bind, Js.exec_set]
    rfl
  · rfl

/-- The end of `attachSession` when the session is not to be added. -/
theorem exec_onSession_cleanup {p : Js Session Unit} (uid : ℕ)
    (hs : g.sessions n = some s) (hp : (p.exec s).1 = .ok ()) :
    (do onSession n p; cleanupSession uid n).exec g =
      (.ok (), (g.put n (p.exec s).2.dropped).removed uid n) := by
  rw [Js.exec_bind, exec_onSession hs, hp]
  dsimp only
  rw [exec_cleanupSession uid (put_self ..), put_put]

/-- Closing does not raise an exception, or the session remains as it was, but
for its WebSocket. -/
theorem exec_resume_rejected {reason : Text} (hs : g.sessions n = some s)
    (hreason : s.attach = .rejected reason) :
    (resume R n s).exec g =
        (.ok (), (g.put n (s.leaving (.resume n)).dropped).removed s.uid n) ∨
      ∃ error, (resume R n s).exec g =
        (.error error, g.put n (s.leaving (.resume n))) := by
  rw [resume, Js.exec_bind, exec_onSession hs, Js.exec_modify, hreason]
  dsimp only
  rw [Js.exec_bind, exec_onSession (put_self ..), Session.exec_sendJson]
  dsimp only
  rw [Js.exec_bind, put_put, exec_onSession (put_self ..), Session.exec_close,
    put_put]
  have hleaving : s.leaving (.resume n) =
      (Session.send (.error reason) { s with attach := .done }).shut := by
    simp only [Session.leaving, hreason]
  rw [← hleaving]
  cases ((Session.close R reason).exec
      (Session.send (.error reason) { s with attach := .done })).1 with
  | error e => exact .inr ⟨e, rfl⟩
  | ok a =>
      dsimp only
      rw [exec_cleanupSession s.uid (put_self ..), put_put]
      exact .inl rfl

/-- `WsSessionManager.add` when there is no other session. -/
theorem exec_add_free {uid : ℕ}
    (hold : ∀ old, g.sessionsByUid uid = some old → old = n) :
    (add R uid n).exec g = (.ok (), g.entered uid n) := by
  rw [add, Js.exec_bind, Js.exec_get]
  dsimp only
  cases hother : g.sessionsByUid uid with
  | none => rfl
  | some old =>
      dsimp only
      rw [if_neg (not_not_intro (hold old hother))]
      rfl

/-- `WsSessionManager.add` when another session has to go. -/
theorem exec_add_replace {uid old : ℕ} {s₀ : Session}
    (hold : g.sessionsByUid uid = some old) (hne : old ≠ n)
    (hs₀ : g.sessions old = some s₀) :
    (add R uid n).exec g =
        (.ok (), ((g.put old s₀.shut).removed uid old).entered uid n) ∨
      ∃ error, (add R uid n).exec g =
        (.error error, (g.put old s₀.shut).removed uid old) := by
  have hs₀' : (g.removed uid old).sessions old = some s₀ := hs₀
  rw [add, Js.exec_bind, Js.exec_get]
  dsimp only
  rw [hold]
  dsimp only
  rw [if_pos hne, Js.exec_bind, exec_remove]
  dsimp only
  rw [Js.exec_bind, exec_onSession hs₀', Session.exec_close]
  cases ((Session.close R (ascii "replaced by a newer session")).exec s₀).1 with
  | error e => exact .inr ⟨e, rfl⟩
  | ok a => exact .inl rfl

theorem exec_resume_resolved (hs : g.sessions n = some s)
    (hattach : s.attach = .resolved) :
    (resume R n s).exec g =
      (if s.isOpen = false then cleanupSession s.uid n
        else do
          add R s.uid n
          onSession n (Session.sendJson (.online s.uid n))).exec
        (g.put n (s.leaving (.resume n))) := by
  rw [resume, Js.exec_bind, exec_onSession hs, Js.exec_modify, hattach]
  simp only [Session.leaving, hattach]

/-- A session that is in a table is known. -/
def Stored (g : GatewayState) : Prop :=
  ∀ uid n, g.sessionsByUid uid = some n → ∃ s, g.sessions n = some s ∧ s.uid = uid

/-- The dispatch of an event. -/
theorem dispatch_ok {event : GatewayEvent} {g' : GatewayState}
    (h : (handle R event).exec g = (.ok (), g')) : g.dispatch R event = g' := by
  rw [dispatch, h]

theorem dispatch_error {event : GatewayEvent} {g' : GatewayState}
    {error : JsError} (h : (handle R event).exec g = (.error error, g')) :
    g.dispatch R event = { g' with crashed := true } := by
  rw [dispatch, h]

theorem handle_resume (hs : g.sessions n = some s) :
    (handle R (.resume n)).exec g = (resume R n s).exec g := by
  rw [handle, Js.exec_bind, Js.exec_get]
  dsimp only
  rw [hs]

theorem effect_resume_rejected {reason : Text} (hs : g.sessions n = some s)
    (henabled : s.enabled (.resume n) = true)
    (hreason : s.attach = .rejected reason) :
    g.Effect R (.resume n) (g.dispatch R (.resume n)) := by
  rcases exec_resume_rejected (R := R) hs hreason with hexec | ⟨error, hexec⟩
  · rw [dispatch_ok ((handle_resume hs).trans hexec)]
    refine .cleanup rfl hs henabled rfl ?_
    simp only [Session.leaving, hreason]
    exact Session.shut_isOpen _
  · rw [dispatch_error ((handle_resume hs).trans hexec)]
    exact .fail hs hreason

theorem effect_resume_resolved (hs : g.sessions n = some s)
    (hstored : g.Stored) (henabled : s.enabled (.resume n) = true)
    (hattach : s.attach = .resolved) :
    g.Effect R (.resume n) (g.dispatch R (.resume n)) := by
  have hleaving : (s.leaving (.resume n)).isOpen = s.isOpen := by
    simp only [Session.leaving, hattach]
    rfl
  have hresume := (handle_resume (R := R) hs).trans
    (exec_resume_resolved hs hattach)
  cases hopen : s.isOpen with
  | false =>
      rw [if_pos hopen, exec_cleanupSession s.uid (put_self ..), put_put] at hresume
      rw [dispatch_ok hresume]
      exact .cleanup rfl hs henabled rfl (hleaving.trans hopen)
  | true =>
      rw [if_neg (by simp [hopen]), Js.exec_bind] at hresume
      by_cases hold : ∀ old, g.sessionsByUid s.uid = some old → old = n
      · rw [exec_add_free (g := g.put n (s.leaving (.resume n))) hold] at hresume
        dsimp only at hresume
        have hn : ((g.put n (s.leaving (.resume n))).entered s.uid n).sessions n =
            some (s.leaving (.resume n)) := put_self ..
        have hput : ((g.put n (s.leaving (.resume n))).entered s.uid n).put n
              ((s.leaving (.resume n)).send (.online s.uid n)) =
            (g.put n ((s.leaving (.resume n)).send (.online s.uid n))).entered
              s.uid n :=
          congrArg (entered s.uid n) (put_put ..)
        rw [exec_onSession hn, Session.exec_sendJson, hput] at hresume
        rw [dispatch_ok hresume]
        exact .join hs hattach hopen hold
      · simp only [not_forall] at hold
        obtain ⟨old, hold, hdistinct⟩ := hold
        have hne : old ≠ n := hdistinct
        obtain ⟨s₀, hs₀, -⟩ := hstored _ _ hold
        have hs₀' : (g.put n (s.leaving (.resume n))).sessions old = some s₀ :=
          (put_of_ne hne ..).trans hs₀
        rcases exec_add_replace (R := R) (g := g.put n (s.leaving (.resume n)))
            hold hne hs₀' with hadd | ⟨error, hadd⟩
        · rw [hadd] at hresume
          dsimp only at hresume
          have hn : (((g.put n (s.leaving (.resume n))).put old s₀.shut).removed
              s.uid old |>.entered s.uid n).sessions n =
                some (s.leaving (.resume n)) :=
            (put_of_ne hne.symm ..).trans (put_self ..)
          have hput : (((g.put n (s.leaving (.resume n))).put old
                s₀.shut).removed s.uid old |>.entered s.uid n).put n
                ((s.leaving (.resume n)).send (.online s.uid n)) =
              (((g.put n ((s.leaving (.resume n)).send (.online s.uid n))).put
                old s₀.shut).removed s.uid old |>.entered s.uid n) :=
            congrArg (fun g : GatewayState =>
              (g.removed s.uid old).entered s.uid n) (put_put_of_ne hne ..)
          rw [exec_onSession hn, Session.exec_sendJson, hput] at hresume
          rw [dispatch_ok hresume]
          exact .replace hs hattach hopen hold hne hs₀
        · rw [hadd] at hresume
          rw [dispatch_error hresume]
          exact .stuck hs hattach hopen hold hne hs₀

theorem dispatch_onSession {event : GatewayEvent} {p : Js Session Unit}
    (hs : g.sessions n = some s)
    (hevent : (handle R event).exec g = (onSession n p).exec g) :
    g.dispatch R event =
      { g.put n (p.exec s).2 with
        crashed := g.crashed || !(p.exec s).1.isOk } := by
  have hexec := hevent.trans (exec_onSession hs)
  cases hresult : (p.exec s).1 with
  | ok a =>
      rw [hresult] at hexec
      rw [dispatch_ok hexec]
      simp [put, Except.isOk, Except.toBool]
  | error error =>
      rw [hresult] at hexec
      rw [dispatch_error hexec]
      simp [put, Except.isOk, Except.toBool]

theorem effect_code {event : GatewayEvent} {p : Js Session Unit}
    (hn : event.session = some n) (hs : g.sessions n = some s)
    (henabled : s.enabled event = true) (hcode : event.code R = some p) :
    g.Effect R event (g.dispatch R event) := by
  have hevent : (handle R event).exec g = (onSession n p).exec g := by
    cases event with
    | attach uid => cases hcode
    | wsError m => cases hcode
    | wsClose m => cases hcode
    | resume m => cases hcode
    | _ =>
        cases hn
        cases hcode
        rfl
  rw [dispatch_onSession hs hevent]
  exact .code hn hs henabled hcode

theorem effect_leave {event : GatewayEvent} {readyState : ReadyState}
    (hs : g.sessions n = some s) (henabled : s.enabled event = true)
    (hn : event.session = some n) (hcode : event.code R = none)
    (hleaving : s.leaving event = { s with readyState })
    (hclosed : readyState ≠ .open)
    (hevent : handle R event = do
      let g ← get
      onSession n (modify fun s => { s with readyState })
      cleanupSession ((g.sessions n).elim 0 Session.uid) n) :
    g.Effect R event (g.dispatch R event) := by
  have hexec : (handle R event).exec g =
      (.ok (), (g.put n (s.leaving event).dropped).removed s.uid n) := by
    rw [hevent, Js.exec_bind, Js.exec_get, hleaving]
    dsimp only
    rw [hs]
    exact exec_onSession_cleanup s.uid hs rfl
  rw [dispatch_ok hexec]
  refine .cleanup hn hs henabled hcode ?_
  rw [hleaving, Session.isOpen]
  exact decide_eq_false hclosed

/-- Every event has one of the effects. -/
theorem effect_of_enabled {event : GatewayEvent} (hstored : g.Stored)
    (h : g.enabled event = true) : g.Effect R event (g.dispatch R event) := by
  rcases hsession : event.session with _ | n
  · cases event with
    | attach uid => exact .attach uid
    | _ => cases hsession
  · have hany : ((g.sessions n).any fun s => s.enabled event) = true := by
      cases event with
      | attach uid => cases hsession
      | _ =>
          cases hsession
          exact h
    obtain ⟨s, hs, henabled⟩ := (Option.any_eq_true _ _).mp hany
    cases event with
    | attach uid => cases hsession
    | wsError m =>
        cases hsession
        exact effect_leave hs henabled rfl rfl rfl (by decide) rfl
    | wsClose m =>
        cases hsession
        exact effect_leave hs henabled rfl rfl rfl (by decide) rfl
    | resume m =>
        cases hsession
        cases hattach : s.attach with
        | resolved => exact effect_resume_resolved hs hstored henabled hattach
        | rejected reason => exact effect_resume_rejected hs henabled hattach
        | awaiting => simp [Session.enabled, hattach] at henabled
        | done => simp [Session.enabled, hattach] at henabled
    | _ => exact effect_code hsession hs henabled rfl

end GatewayState

end ReliableDelivery
