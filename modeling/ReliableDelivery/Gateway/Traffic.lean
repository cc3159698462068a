import ReliableDelivery.Gateway.Registry

/-!
# What passes through a session

A session stands between a browser and the server.  Its traffic is what it
received from either side and what it sent to either side, in order; within one
event what is received comes before what is sent.  `Session.Passes` says what an
event sends and what becomes of the books of the client, that is of its pending
sends, its counter and its unacknowledged pushes.
-/

namespace ReliableDelivery

open Ecmascript TransitionSystem

inductive Traffic where
  | fromBrowser (message : BrowserMessage)
  | fromServer (envelope : EnvelopeObject)
  | toBrowser (frame : BrowserFrame)
  | toServer (envelope : EnvelopeObject)

namespace Traffic

/-! ## Kinds of traffic -/

/-- The `client_msg_id` of a `send_message`. -/
def sendMessage (R : Runtime) : Traffic → Option Text
  | .fromBrowser message =>
      if Session.isText (property (ascii "type") message)
          (ascii "send_message") then
        (toTextOrEmpty R.engine
          (property (ascii "client_msg_id") message)).toOption
      else none
  | _ => none

/-- The `msg_id` of a `message_ack`, if it is a positive integer. -/
def messageAck (R : Runtime) : Traffic → Option ℕ
  | .fromBrowser message =>
      if Session.isText (property (ascii "type") message)
          (ascii "message_ack") then
        match toNumber R.engine (property (ascii "msg_id") message) with
        | .ok x =>
            if x.isInteger = true ∧ x.nonpositive = false then some x.toNat
            else none
        | .error _ => none
      else none
  | _ => none

/-- The outcome, the `client_msg_id` and the `msg_id` of a `send_ack`. -/
def sendAck : Traffic → Option (Bool × Text × ℕ)
  | .toBrowser (.sendAck ok clientMsgId msgId _) => some (ok, clientMsgId, msgId)
  | _ => none

/-- The sequence number of a request. -/
def request : Traffic → Option ℕ
  | .toServer envelope =>
      if envelope.type = 1 ∨ envelope.type = 3 then some envelope.seq else none
  | _ => none

/-- The sequence number and the `client_msg_id` of a CHAT_REQ. -/
def chatReq : Traffic → Option (ℕ × Decimal.Bytes)
  | .toServer ⟨3, seq, _, some (.chatReq _ _ _ clientMsgId)⟩ =>
      some (seq, clientMsgId)
  | _ => none

/-- The sequence number, the `msg_id` and the outcome of an ACK of the server. -/
def serverAck : Traffic → Option (ℕ × ℕ × Bool)
  | .fromServer envelope =>
      if envelope.type = 5 then some envelope.acked else none
  | _ => none

/-- The `msg_id` of a CHAT_PUSH that is not history. -/
def livePush : Traffic → Option ℕ
  | .fromServer ⟨4, _, _, some (.chatPush msgId _ _ _ _ false)⟩ => some msgId
  | _ => none

/-- The `msg_id` of an ACK to the server. -/
def pushAck : Traffic → Option ℕ
  | .toServer ⟨5, _, _, some (.ack msgId _ _ _)⟩ => some msgId
  | _ => none

def frame : Traffic → Option BrowserFrame
  | .toBrowser frame => some frame
  | _ => none

def envelope : Traffic → Option EnvelopeObject
  | .toServer envelope => some envelope
  | _ => none

end Traffic

theorem messageAck_pos {R : Runtime} {x : Traffic} {msgId : ℕ}
    (h : x.messageAck R = some msgId) : 0 < msgId := by
  cases x with
  | fromBrowser message =>
      rw [Traffic.messageAck] at h
      split at h
      · split at h
        · next number _ =>
            split at h
            · next hvalid =>
                rw [Option.some.injEq] at h
                rw [← h]
                exact Number.toNat_pos hvalid.1 hvalid.2
            · cases h
        · cases h
      · cases h
  | fromServer envelope => cases h
  | toBrowser frame => cases h
  | toServer envelope => cases h

/-! ## The traffic of a run -/

namespace Session

/-- What the session has sent when it went from one state to another. -/
def output (s s' : Session) : List Traffic :=
  (s'.sent.drop s.sent.length).map .toBrowser ++
    (s'.written.drop s.written.length).map .toServer

/-- What the session reads in an event. -/
def input (R : Runtime) (s : Session) : GatewayEvent → List Traffic
  | .wsMessage _ _ data => (parseMessage R data).toList.map .fromBrowser
  | .imData _ _ chunk =>
      match ImProtocol.decode R.protobufjs (s.client.recvBuffer ++ chunk) with
      | .ok decoded => decoded.envelopes.map .fromServer
      | .error _ => []
  | _ => []

end Session

/-- What passes through session `n` in an event. -/
def GatewayState.passing (R : Runtime) (n : ℕ) (g : GatewayState)
    (event : GatewayEvent) : List Traffic :=
  match g.sessions n, (g.dispatch R event).sessions n with
  | some s, some s' =>
      (if event.session = some n then s.input R event else []) ++ s.output s'
  | _, _ => []

/-- What passed through session `n`, given the history of the run. -/
def traffic (R : Runtime) (n : ℕ) :
    List (GatewayState × GatewayEvent) → List Traffic
  | [] => []
  | (g, event) :: past => traffic R n past ++ g.passing R n event

theorem traffic_next {R : Runtime} {n : ℕ} {e e' : GatewayRun R}
    {event : GatewayEvent} (h : e.Next event e') :
    traffic R n e'.history =
      traffic R n e.history ++ e.state.passing R n event := by
  rw [h.2]
  rfl

/-! ## What becomes of the books -/

/-- The pending sends, the next sequence number and the unacknowledged pushes. -/
def ImClient.books (c : ImClient) :
    (ℕ → Option Text) × ℕ × (ℕ → Option ℕ) :=
  (c.pendingSends, c.nextSeq, c.pushSeqByMsgId)

theorem books_eq {c c' : ImClient} (h : c'.books = c.books) :
    c'.pendingSends = c.pendingSends ∧ c'.nextSeq = c.nextSeq ∧
      c'.pushSeqByMsgId = c.pushSeqByMsgId := by
  rw [ImClient.books, ImClient.books, Prod.mk.injEq, Prod.mk.injEq] at h
  exact h

namespace Session

variable {R : Runtime} {s s' : Session}

@[simp] theorem send_client (frame : BrowserFrame) (s : Session) :
    (s.send frame).client = s.client := by
  rw [send]
  split <;> rfl

@[simp] theorem send_written (frame : BrowserFrame) (s : Session) :
    (s.send frame).written = s.written := by
  rw [send]
  split <;> rfl

theorem send_sent (frame : BrowserFrame) (s : Session) :
    (s.send frame).sent = s.sent ∨ (s.send frame).sent = s.sent ++ [frame] := by
  rw [send]
  split
  · exact .inr rfl
  · exact .inl rfl

theorem output_eq {frames : List BrowserFrame} {envelopes : List EnvelopeObject}
    (hsent : s'.sent = s.sent ++ frames)
    (hwritten : s'.written = s.written ++ envelopes) :
    s.output s' = frames.map .toBrowser ++ envelopes.map .toServer := by
  rw [output, hsent, hwritten, List.drop_left, List.drop_left]

/-! ### Envelopes of the server -/

/-- What the session makes of an envelope of the server: it sends the frames to
the browser and comes into the next state. -/
inductive Heeds (s : Session) (x : EnvelopeObject) :
    List BrowserFrame → Session → Prop
  /-- The books stay as they are. -/
  | ignore {s' : Session} (hbooks : s'.client.books = s.client.books)
      (hpush : x.type ≠ 4) : Heeds s x [] s'
  /-- An acknowledgement settles a pending send. -/
  | settle {clientMsgId : Text} {frames : List BrowserFrame}
      {s' : Session} (hack : x.type = 5)
      (hpending : s.client.pendingSends x.acked.1 = some clientMsgId)
      (hbooks : s'.client.books = (s.settled x.acked.1).client.books)
      (hframes : frames = [] ∨ ∃ reason, frames =
        [.sendAck x.acked.2.2 clientMsgId x.acked.2.1 reason]) :
      Heeds s x frames s'
  /-- A push is noted and passed on. -/
  | push {frames : List BrowserFrame} {s' : Session} (hpush : x.type = 4)
      (hbooks : s'.client.books = (s.pushed x).client.books)
      (hframes : ∀ frame ∈ frames, (Traffic.toBrowser frame).sendAck = none) :
      Heeds s x frames s'

theorem settleLogin_books (outcome : Attach) (s : Session) :
    ∃ s', (settleLogin outcome).exec s = (.ok (), s') ∧
      s'.client.books = s.client.books ∧ s'.sent = s.sent ∧
      s'.written = s.written := by
  refine ⟨_, rfl, ?_⟩
  dsimp only
  split
  · exact ⟨rfl, rfl, rfl⟩
  · exact ⟨rfl, rfl, rfl⟩

theorem pushed_sent (x : EnvelopeObject) (s : Session) :
    (s.pushed x).sent = s.sent ∧ (s.pushed x).written = s.written := by
  rw [pushed]
  split
  · split
    · exact ⟨rfl, rfl⟩
    · exact ⟨rfl, rfl⟩
  · exact ⟨rfl, rfl⟩

theorem exec_handleEnvelope (now : ℕ) (x : EnvelopeObject) (s : Session) :
    ∃ frames s', (handleEnvelope R now x).exec s = (.ok (), s') ∧
      s.Heeds x frames s' ∧ s'.sent = s.sent ++ frames ∧
      s'.written = s.written := by
  rw [handleEnvelope]
  split
  · next htype =>
      have hlogin : ∃ outcome, handleLoginResponse R x = settleLogin outcome := by
        rw [handleLoginResponse]
        split
        · exact ⟨_, rfl⟩
        · exact ⟨_, rfl⟩
        · exact ⟨_, rfl⟩
      obtain ⟨outcome, hlogin⟩ := hlogin
      obtain ⟨s', hexec, hbooks, hsent, hwritten⟩ := settleLogin_books outcome s
      refine ⟨[], s', hlogin ▸ hexec, .ignore hbooks (by simp [htype]), ?_,
        hwritten⟩
      rw [hsent, List.append_nil]
  · split
    · next htype =>
        rcases exec_handleAck (R := R) (s := s) x with
          ⟨-, hexec⟩ | ⟨clientMsgId, reason, hpending, hexec⟩
        · exact ⟨[], s, hexec, .ignore rfl (by simp [htype]), by simp, rfl⟩
        · rcases send_sent (.sendAck x.acked.2.2 clientMsgId x.acked.2.1 reason)
              (s.settled x.acked.1) with hsent | hsent
          · exact ⟨[], _, hexec, .settle htype hpending (by simp) (.inl rfl),
              hsent.trans (List.append_nil _).symm, by simp [settled]⟩
          · exact ⟨_, _, hexec, .settle htype hpending (by simp) (.inr ⟨_, rfl⟩),
              hsent, by simp [settled]⟩
    · split
      · next htype =>
          obtain ⟨msgId, fromUid, toUid, content, timestampMs, history, hexec⟩ :=
            exec_handleChatPush (R := R) (s := s) now x
          obtain ⟨hsame, hwritten⟩ := pushed_sent x s
          rcases send_sent (.message msgId fromUid toUid content timestampMs
              history) (s.pushed x) with hsent | hsent
          · refine ⟨[], _, hexec, .push htype (by simp) (by simp), ?_, ?_⟩
            · rw [hsent, hsame, List.append_nil]
            · rw [send_written, hwritten]
          · refine ⟨[.message msgId fromUid toUid content timestampMs history],
              _, hexec, .push htype (by simp) ?_, ?_, ?_⟩
            · simp [Traffic.sendAck]
            · rw [hsent, hsame]
            · rw [send_written, hwritten]
      · next htype =>
          exact ⟨[], s, rfl, .ignore rfl htype, by simp, rfl⟩

/-- Induction over the envelopes of one read. -/
theorem handleEnvelopes_induct {P : List BrowserFrame → Session → Prop}
    (now : ℕ) (envelopes : List EnvelopeObject) (s : Session) (hnil : P [] s)
    (hstep : ∀ frames s₁ x frames' s₂, x ∈ envelopes → P frames s₁ →
      s₁.Heeds x frames' s₂ → P (frames ++ frames') s₂) :
    ∃ frames, ((handleEnvelopes R now envelopes).exec s).2.sent =
        s.sent ++ frames ∧
      ((handleEnvelopes R now envelopes).exec s).2.written = s.written ∧
      P frames ((handleEnvelopes R now envelopes).exec s).2 := by
  induction envelopes generalizing P s with
  | nil => exact ⟨[], (List.append_nil _).symm, rfl, hnil⟩
  | cons x envelopes ih =>
      obtain ⟨frames, s₁, hexec, hheeds, hsent, hwritten⟩ :=
        exec_handleEnvelope (R := R) now x s
      have hrest : (handleEnvelopes R now (x :: envelopes)).exec s =
          (handleEnvelopes R now envelopes).exec s₁ := by
        rw [handleEnvelopes, Js.exec_bind, hexec]
      have hfirst := hstep [] s x frames s₁ List.mem_cons_self hnil hheeds
      obtain ⟨frames', hsent', hwritten', hP⟩ :=
        ih (P := fun frames' => P (frames ++ frames')) s₁
          (by simpa using hfirst) (by
            intro frames₁ s₂ y frames₂ s₃ hy hP hheeds'
            rw [← List.append_assoc]
            exact hstep _ _ y _ _ (List.mem_cons_of_mem x hy) hP hheeds')
      rw [hrest]
      refine ⟨frames ++ frames', ?_, hwritten'.trans hwritten, hP⟩
      rw [hsent', hsent, List.append_assoc]

/-! ### Code that leaves the books alone -/

/-- Nothing but frames other than `send_ack` is sent, and the books stay as they
are. -/
structure Idle (s s' : Session) : Prop where
  books : s'.client.books = s.client.books
  written : s'.written = s.written
  sent : ∃ frames, s'.sent = s.sent ++ frames ∧
    ∀ frame ∈ frames, (Traffic.toBrowser frame).sendAck = none

instance : IsPreorder Session Idle where
  refl _ := ⟨rfl, rfl, [], (List.append_nil _).symm, by simp⟩
  trans _ _ _ h h' := by
    obtain ⟨frames, hsent, hframes⟩ := h.sent
    obtain ⟨frames', hsent', hframes'⟩ := h'.sent
    refine ⟨h'.books.trans h.books, h'.written.trans h.written,
      frames ++ frames', ?_, ?_⟩
    · rw [hsent', hsent, List.append_assoc]
    · intro frame hframe
      rcases List.mem_append.mp hframe with hframe | hframe
      · exact hframes frame hframe
      · exact hframes' frame hframe

theorem Idle.output (h : s.Idle s') : ∃ frames : List BrowserFrame,
    s.output s' = frames.map .toBrowser ∧
      ∀ frame ∈ frames, (Traffic.toBrowser frame).sendAck = none := by
  obtain ⟨frames, hsent, hframes⟩ := h.sent
  refine ⟨frames, ?_, hframes⟩
  rw [output_eq hsent (h.written.trans (List.append_nil _).symm)]
  simp

theorem idle_of_eq (hbooks : s'.client.books = s.client.books)
    (hwritten : s'.written = s.written) (hsent : s'.sent = s.sent) :
    s.Idle s' :=
  ⟨hbooks, hwritten, [], hsent.trans (List.append_nil _).symm, by simp⟩

theorem idle_send {frame : BrowserFrame}
    (hframe : (Traffic.toBrowser frame).sendAck = none) (s : Session) :
    s.Idle (s.send frame) := by
  refine ⟨by simp, send_written frame s, ?_⟩
  rcases send_sent frame s with hsent | hsent
  · exact ⟨[], hsent.trans (List.append_nil _).symm, by simp⟩
  · exact ⟨[frame], hsent, by simpa using hframe⟩

theorem idle_shut (s : Session) : s.Idle s.shut := by
  rw [shut]
  split
  · exact idle_of_eq rfl rfl rfl
  · exact refl_of Idle s

theorem idle_disconnected (s : Session) : s.Idle s.disconnected := by
  rw [disconnected]
  split
  · exact idle_of_eq rfl rfl rfl
  · exact refl_of Idle s

theorem idle_dropped (s : Session) : s.Idle s.dropped := by
  rw [dropped]
  split
  · have hfirst : s.Idle { s with registered := false } :=
      idle_of_eq rfl rfl rfl
    exact trans_of Idle hfirst (idle_disconnected _)
  · exact refl_of Idle s

theorem idle_leaving (event : GatewayEvent) (s : Session) :
    s.Idle (s.leaving event) := by
  cases event with
  | wsError n => exact idle_of_eq rfl rfl rfl
  | wsClose n => exact idle_of_eq rfl rfl rfl
  | resume n =>
      have hfirst : s.Idle { s with attach := .done } := idle_of_eq rfl rfl rfl
      rw [leaving]
      split
      · exact trans_of Idle hfirst
          (trans_of Idle (idle_send rfl _) (idle_shut _))
      · exact hfirst
  | _ => exact refl_of Idle s

theorem within_idle_close (reason : Text) : Js.Within Idle (close R reason) := by
  intro s
  rw [exec_close]
  exact idle_shut s

theorem within_idle_settleLogin (outcome : Attach) :
    Js.Within Idle (settleLogin outcome) := by
  intro s
  obtain ⟨s', hexec, hbooks, hsent, hwritten⟩ := settleLogin_books outcome s
  rw [hexec]
  exact idle_of_eq hbooks hwritten hsent

theorem within_idle_handleError (reason : Text) :
    Js.Within Idle (handleError reason) := by
  refine (within_idle_settleLogin _).bind fun _ => ?_
  apply Js.within_get_bind
  intro s
  split
  · exact idle_send rfl s
  · exact refl_of Idle s

theorem within_idle_handleClose (reason : Text) :
    Js.Within Idle (handleClose R reason) := by
  refine Js.Within.bind ?_ fun _ => (within_idle_settleLogin _).bind fun _ => ?_
  · exact fun s => idle_of_eq rfl rfl rfl
  · apply Js.within_get_bind
    intro s
    split
    · exact ((show Js.Within Idle (sendJson (.error reason)) from
        idle_send rfl).bind fun _ => within_idle_close reason) s
    · exact refl_of Idle s

/-! ### Events -/

/-- What passes through the session in an event, and what becomes of it. -/
inductive Passes (R : Runtime) (s : Session) : List Traffic → Session → Prop
  /-- The books stay as they are; a `message_ack` is passed over only when the
  client has been taken out of its table. -/
  | idle {l : List Traffic} {s' : Session} (hidle : s.Idle s')
      (hl : ∀ x ∈ l, ∃ message, x = .fromBrowser message ∧
        (s.registered = true → x.messageAck R = none)) :
      Passes R s (l ++ s.output s') s'
  /-- The server is asked to log the user in. -/
  | login {l : List Traffic} {s' : Session}
      (hbooks : s'.client.books = s.numbered.client.books)
      (hl : l = [] ∨ ∃ now, l = [.toServer (s.loginRequest now)]) :
      Passes R s l s'
  /-- A message is refused. -/
  | refuse {message : BrowserMessage} {clientMsgId : Text} {l : List Traffic}
      {s' : Session}
      (hmessage : (Traffic.fromBrowser message).sendMessage R =
        some clientMsgId)
      (hbooks : s'.client.books = s.client.books ∨
        s'.client.books = (s.expecting clientMsgId).client.books)
      (hl : l = [.fromBrowser message] ∨ ∃ reason, l =
        [.fromBrowser message, .toBrowser (.sendAck false clientMsgId 0 reason)]) :
      Passes R s l s'
  /-- A message goes to the server. -/
  | forward {message : BrowserMessage} {clientMsgId : Text}
      {now toUid : ℕ} {content : Text} {s' : Session}
      (hmessage : (Traffic.fromBrowser message).sendMessage R =
        some clientMsgId)
      (hbooks : s'.client.books = (s.expecting clientMsgId).client.books) :
      Passes R s [.fromBrowser message,
        .toServer (s.chatRequest R now toUid content clientMsgId)] s'
  /-- A push is acknowledged, unless an exception comes in between. -/
  | acknowledge {message : BrowserMessage} {msgId seq : ℕ} {l : List Traffic}
      {s' : Session}
      (hmessage : (Traffic.fromBrowser message).messageAck R = some msgId)
      (hseq : s.client.pushSeqByMsgId msgId = some seq)
      (hbooks : s'.client.books = (s.noted msgId none).client.books)
      (hl : l = [.fromBrowser message] ∨ ∃ now, l =
        [.fromBrowser message, .toServer (ackEnvelope now msgId seq)]) :
      Passes R s l s'
  /-- A push is not known. -/
  | unknown {message : BrowserMessage} {x : Number} {s' : Session}
      (hx : toNumber R.engine (property (ascii "msg_id") message) = .ok x)
      (hmessage : (Traffic.fromBrowser message).messageAck R = some x.toNat)
      (hseq : s.client.pushSeqByMsgId x.toNat = none)
      (hbooks : s'.client.books = s.client.books) :
      Passes R s (.fromBrowser message ::
        if s.isOpen then
          [.toBrowser (.error (ascii "cannot ack unknown msg_id " ++
            R.engine.numberToString x))]
        else []) s'
  /-- Envelopes of the server are handled. -/
  | receive {s₁ s' : Session} {now : ℕ} {envelopes : List EnvelopeObject}
      (hbooks : s₁.client.books = s.client.books) (hsent : s₁.sent = s.sent)
      (hwritten : s₁.written = s.written)
      (hs' : ((handleEnvelopes R now envelopes).exec s₁).2 = s') :
      Passes R s (envelopes.map .fromServer ++ s.output s') s'

theorem output_nil (hsent : s'.sent = s.sent) (hwritten : s'.written = s.written) :
    s.output s' = [] := by
  rw [output, hsent, hwritten, List.drop_length, List.drop_length]
  rfl

theorem output_send (s s₁ : Session) (frame : BrowserFrame)
    (hsent : s₁.sent = s.sent) (hwritten : s₁.written = s.written) :
    s.output (s₁.send frame) = [] ∨
      s.output (s₁.send frame) = [.toBrowser frame] := by
  have hsame : (s₁.send frame).written = s.written ++ [] := by
    rw [send_written, hwritten, List.append_nil]
  rcases send_sent frame s₁ with hsend | hsend
  · exact .inl (output_nil (hsend.trans hsent)
      ((send_written frame s₁).trans hwritten))
  · rw [hsent] at hsend
    exact .inr (output_eq hsend hsame)

theorem output_wrote (s s₁ : Session) (x : EnvelopeObject)
    (hsent : s₁.sent = s.sent) (hwritten : s₁.written = s.written) :
    s.output (s₁.wrote x) = [.toServer x] := by
  have hsame : (s₁.wrote x).sent = s.sent ++ [] :=
    hsent.trans (List.append_nil _).symm
  have hwrote : (s₁.wrote x).written = s.written ++ [x] := by
    rw [wrote, hwritten]
  exact output_eq hsame hwrote

theorem passes_handleConnect (now : ℕ) :
    s.Passes R (s.output (Js.exec (do
        modify fun s => { s with socket := .open }
        handleConnect R now) s).2)
      (Js.exec (do
        modify fun s => { s with socket := .open }
        handleConnect R now) s).2 := by
  rw [exec_handleConnect]
  rcases exec_sendEnvelope R s.connected (s.loginRequest now) with
    hsend | ⟨error, hsend⟩
  · rw [hsend, output_wrote s s.connected _ rfl rfl]
    exact .login rfl (.inr ⟨now, rfl⟩)
  · rw [hsend]
    exact .login rfl (.inl (output_nil rfl rfl))

/-- A message that is not a valid `message_ack` can be passed over. -/
theorem passes_over {message : BrowserMessage} (hidle : s.Idle s')
    (hmessage : s.registered = true →
      (Traffic.fromBrowser message).messageAck R = none) :
    s.Passes R (.fromBrowser message :: s.output s') s' := by
  have hidle := Passes.idle (R := R) (l := [.fromBrowser message]) hidle
  apply hidle
  intro x hx
  exact ⟨message, List.mem_singleton.mp hx, List.mem_singleton.mp hx ▸ hmessage⟩

theorem messageAck_eq_none {message : BrowserMessage} {type : Text}
    (htype : isText (property (ascii "type") message) type)
    (hne : type ≠ ascii "message_ack") :
    (Traffic.fromBrowser message).messageAck R = none := by
  rw [Traffic.messageAck, if_neg]
  intro hack
  exact hne (isText_unique htype hack)

theorem passes_handleSendMessage (now : ℕ) {message : BrowserMessage}
    (htype : isText (property (ascii "type") message) (ascii "send_message")) :
    s.Passes R
      (.fromBrowser message ::
        s.output ((handleSendMessage R now message).exec s).2)
      ((handleSendMessage R now message).exec s).2 := by
  rcases exec_handleSendMessage (R := R) (s := s) now message with
    hsame | ⟨clientMsgId, hclient, hcases⟩
  · rw [hsame]
    exact passes_over (refl_of Idle s) fun _ =>
      messageAck_eq_none htype (by decide)
  · have hmessage : (Traffic.fromBrowser message).sendMessage R =
        some clientMsgId := by
      rw [Traffic.sendMessage, if_pos htype, hclient]
      rfl
    rcases hcases with ⟨reason, s₁, hs₁, hs'⟩ | ⟨toUid, content, hs'⟩
    · rw [hs']
      have hsame : s₁.sent = s.sent ∧ s₁.written = s.written ∧
          (s₁.client.books = s.client.books ∨
            s₁.client.books = (s.expecting clientMsgId).client.books) := by
        rcases hs₁ with rfl | rfl
        · exact ⟨rfl, rfl, .inl rfl⟩
        · exact ⟨rfl, rfl, .inr rfl⟩
      refine .refuse hmessage ?_ ?_
      · rw [send_client]
        exact hsame.2.2
      · rcases output_send s s₁ (.sendAck false clientMsgId 0 reason) hsame.1
            hsame.2.1 with houtput | houtput
        · exact .inl (congrArg _ houtput)
        · exact .inr ⟨reason, congrArg _ houtput⟩
    · rw [hs', output_wrote s (s.expecting clientMsgId) _ rfl rfl]
      exact .forward hmessage rfl

theorem passes_handleMessageAck (now : ℕ) {message : BrowserMessage}
    (htype : isText (property (ascii "type") message) (ascii "message_ack")) :
    s.Passes R
      (.fromBrowser message ::
        s.output ((handleMessageAck R now message).exec s).2)
      ((handleMessageAck R now message).exec s).2 := by
  rcases exec_handleMessageAck (R := R) (s := s) now message with
    ⟨hsame, hinvalid⟩ | ⟨x, hx, hinteger, hpositive, -, hcases⟩
  · rw [hsame]
    refine passes_over (refl_of Idle s) fun hregistered => ?_
    rw [Traffic.messageAck, if_pos htype]
    split
    · next x hx => exact if_neg (hinvalid hregistered x hx)
    · rfl
  · have hmessage : (Traffic.fromBrowser message).messageAck R =
        some x.toNat := by
      rw [Traffic.messageAck, if_pos htype, hx]
      exact if_pos ⟨hinteger, hpositive⟩
    rcases hcases with ⟨hseq, hs'⟩ | ⟨seq, hseq, hs' | hs'⟩
    · rw [hs']
      have houtput : s.output (s.send (.error (ascii
            "cannot ack unknown msg_id " ++ R.engine.numberToString x))) =
          if s.isOpen then
            [.toBrowser (.error (ascii "cannot ack unknown msg_id " ++
              R.engine.numberToString x))]
          else [] := by
        rw [send]
        split
        · simp [output]
        · exact output_nil rfl rfl
      rw [houtput]
      exact .unknown hx hmessage hseq (by rw [send_client])
    · rw [hs']
      exact .acknowledge hmessage hseq rfl
        (.inl (congrArg _ (output_nil rfl rfl)))
    · rw [hs', output_wrote s (s.noted x.toNat none) _ rfl rfl]
      exact .acknowledge hmessage hseq rfl (.inr ⟨now, rfl⟩)

theorem passes_handleMessage (n now : ℕ) (data : RawData) :
    s.Passes R
      (s.input R (.wsMessage n now data) ++
        s.output ((handleMessage R now data).exec s).2)
      ((handleMessage R now data).exec s).2 := by
  rw [handleMessage, input]
  cases hparse : parseMessage R data with
  | none =>
      refine .idle (idle_send rfl s) ?_
      intro x hx
      cases hx
  | some message =>
      dsimp only
      split
      · next htype => exact passes_handleSendMessage now htype
      · split
        · next htype => exact passes_handleMessageAck now htype
        · next hack =>
            have hnone : s.registered = true →
                (Traffic.fromBrowser message).messageAck R = none := by
              intro _
              rw [Traffic.messageAck, if_neg hack]
            split
            · exact passes_over (idle_send rfl s) hnone
            · exact passes_over (idle_send rfl s) hnone

/-- What is left of the handler when the frames could not be decoded. -/
theorem exec_handleData_error {chunk message : Decimal.Bytes} (now : ℕ)
    (h : ImProtocol.decode R.protobufjs (s.client.recvBuffer ++ chunk) =
      .error message) :
    (handleData R now chunk).exec s =
      Js.exec (do
        handleError (R.utf8Read message)
        closeClient)
        { s with client := { s.client with
          recvBuffer := s.client.recvBuffer ++ chunk } } := by
  rw [handleData, Js.exec_bind, Js.exec_get]
  dsimp only
  rw [h, Js.exec_bind, exec_modifyClient]

theorem exec_handleData_ok {chunk : Decimal.Bytes}
    {decoded : ImProtocol.Decoded} (now : ℕ)
    (h : ImProtocol.decode R.protobufjs (s.client.recvBuffer ++ chunk) =
      .ok decoded) :
    (handleData R now chunk).exec s =
      (handleEnvelopes R now decoded.envelopes).exec
        { s with client := { s.client with recvBuffer := decoded.rest } } := by
  rw [handleData, Js.exec_bind, Js.exec_get]
  dsimp only
  rw [h, Js.exec_bind, exec_modifyClient]
  rfl

theorem passes_handleData (n now : ℕ) (chunk : Decimal.Bytes) :
    s.Passes R
      (s.input R (.imData n now chunk) ++
        s.output ((handleData R now chunk).exec s).2)
      ((handleData R now chunk).exec s).2 := by
  rw [input]
  cases hdecode : ImProtocol.decode R.protobufjs
      (s.client.recvBuffer ++ chunk) with
  | error message =>
      rw [exec_handleData_error now hdecode]
      have hclose : Js.Within Idle (do
          handleError (R.utf8Read message)
          closeClient) :=
        (within_idle_handleError _).bind fun _ => idle_disconnected
      have hfirst : s.Idle { s with client := { s.client with
          recvBuffer := s.client.recvBuffer ++ chunk } } :=
        idle_of_eq rfl rfl rfl
      refine .idle (trans_of Idle hfirst (hclose _)) ?_
      intro x hx
      cases hx
  | ok decoded =>
      rw [exec_handleData_ok now hdecode]
      exact @Passes.receive R s { s with client := { s.client with
        recvBuffer := decoded.rest } } _ now decoded.envelopes rfl rfl rfl rfl

theorem passes_idle (hidle : s.Idle s') : s.Passes R (s.output s') s' :=
  Passes.idle (l := []) hidle (fun x hx => by cases hx)

theorem passes_code {event : GatewayEvent} {p : Js Session Unit}
    (hcode : event.code R = some p) :
    s.Passes R (s.input R event ++ s.output (p.exec s).2) (p.exec s).2 := by
  cases event with
  | imConnect n now =>
      cases hcode
      exact passes_handleConnect now
  | imData n now chunk =>
      cases hcode
      exact passes_handleData n now chunk
  | imError n reason =>
      cases hcode
      have hfirst : s.Idle { s with socket := .destroyed } :=
        idle_of_eq rfl rfl rfl
      exact passes_idle (trans_of Idle hfirst (within_idle_handleError reason _))
  | imClose n =>
      cases hcode
      have hfirst : s.Idle { s with socket := .closed } := idle_of_eq rfl rfl rfl
      exact passes_idle (trans_of Idle hfirst (within_idle_handleClose _ _))
  | wsMessage n now data =>
      cases hcode
      exact passes_handleMessage n now data
  | wsClosing n =>
      cases hcode
      exact passes_idle (idle_of_eq rfl rfl rfl)
  | attach uid => cases hcode
  | wsError n => cases hcode
  | wsClose n => cases hcode
  | resume n => cases hcode

end Session

/-! ## Steps of the gateway -/

section Steps

variable {R : Runtime} {n : ℕ} {s s' : Session} {event : GatewayEvent}

theorem input_of_code {s : Session} (hcode : event.code R = none) :
    s.input R event = [] := by
  cases event with
  | attach uid => rfl
  | wsError n => rfl
  | wsClose n => rfl
  | resume n => rfl
  | imConnect n now => rfl
  | imData n now chunk => cases hcode
  | imError n reason => rfl
  | imClose n => rfl
  | wsMessage n now data => cases hcode
  | wsClosing n => rfl

theorem passing_eq {g : GatewayState} (hs : g.sessions n = some s)
    (hs' : (g.dispatch R event).sessions n = some s') :
    g.passing R n event =
      (if event.session = some n then s.input R event else []) ++
        s.output s' := by
  rw [GatewayState.passing, hs, hs']

/-- What an event of another session does to this one. -/
theorem GatewayState.Effect.other {g g' : GatewayState}
    (h : g.Effect R event g') (hregistry : g.Registry)
    (hs : g.sessions n = some s) (hn : event.session ≠ some n) :
    g'.sessions n = some s ∨ g'.sessions n = some s.shut := by
  have hother : ∀ {m}, event.session = some m → n ≠ m := by
    rintro m hm rfl
    exact hn hm
  cases h with
  | attach uid =>
      have hne : n ≠ g.nextSession := by
        rintro rfl
        rw [hregistry.fresh _ le_rfl] at hs
        cases hs
      exact .inl ((put_of_ne hne ..).trans hs)
  | @code event m s₁ p hm hs₁ henabled hcode =>
      have hne := hother hm
      exact .inl ((put_of_ne hne ..).trans hs)
  | @cleanup event m s₁ hm hs₁ henabled hcode hclosed =>
      have hne := hother hm
      exact .inl ((put_of_ne hne ..).trans hs)
  | @fail m s₁ reason hs₁ hreason =>
      have hne := hother rfl
      exact .inl ((put_of_ne hne ..).trans hs)
  | @join m s₁ hs₁ hattach hopen hold =>
      have hne := hother rfl
      exact .inl ((put_of_ne hne ..).trans hs)
  | @replace m old s₁ s₀ hs₁ hattach hopen hold hdistinct hs₀ =>
      have hne := hother rfl
      by_cases heq : n = old
      · subst heq
        cases hs.symm.trans hs₀
        exact .inr (put_self ..)
      · exact .inl ((put_of_ne heq ..).trans ((put_of_ne hne ..).trans hs))
  | @stuck m old s₁ s₀ hs₁ hattach hopen hold hdistinct hs₀ =>
      have hne := hother rfl
      by_cases heq : n = old
      · subst heq
        cases hs.symm.trans hs₀
        exact .inr (put_self ..)
      · exact .inl ((put_of_ne heq ..).trans ((put_of_ne hne ..).trans hs))

/-- What an event of the session itself does to it: code of the session runs, or
the books stay as they are. -/
theorem GatewayState.Effect.own {g g' : GatewayState}
    (h : g.Effect R event g') (hs : g.sessions n = some s)
    (hn : event.session = some n) :
    ∃ s', g'.sessions n = some s' ∧ s.Onward s' ∧
      ((∃ p, event.code R = some p ∧ s' = (p.exec s).2) ∨
        event.code R = none ∧ s.Idle s') := by
  cases h with
  | attach uid => cases hn
  | @code event m s₁ p hm hs₁ henabled hcode =>
      cases hn.symm.trans hm
      cases hs.symm.trans hs₁
      exact ⟨_, put_self .., Session.onward_code hcode henabled,
        .inl ⟨p, hcode, rfl⟩⟩
  | @cleanup event m s₁ hm hs₁ henabled hcode hclosed =>
      cases hn.symm.trans hm
      cases hs.symm.trans hs₁
      refine ⟨_, put_self .., ?_, .inr ⟨hcode, ?_⟩⟩
      · exact trans_of Session.Onward (Session.onward_leaving henabled)
          (Session.onward_dropped _)
      · exact trans_of Session.Idle (Session.idle_leaving event s)
          (Session.idle_dropped _)
  | @fail m s₁ reason hs₁ hreason =>
      cases hn
      cases hs.symm.trans hs₁
      have henabled : s.enabled (.resume n) = true := by
        simp [Session.enabled, hreason]
      exact ⟨_, put_self .., Session.onward_leaving henabled,
        .inr ⟨rfl, Session.idle_leaving _ s⟩⟩
  | @join m s₁ hs₁ hattach hopen hold =>
      cases hn
      cases hs.symm.trans hs₁
      exact ⟨_, put_self .., onward_online hattach _, .inr ⟨rfl,
        trans_of Session.Idle (Session.idle_leaving _ s)
          (Session.idle_send rfl _)⟩⟩
  | @replace m old s₁ s₀ hs₁ hattach hopen hold hdistinct hs₀ =>
      cases hn
      cases hs.symm.trans hs₁
      exact ⟨_, (put_of_ne hdistinct.symm ..).trans (put_self ..),
        onward_online hattach _, .inr ⟨rfl,
          trans_of Session.Idle (Session.idle_leaving _ s)
            (Session.idle_send rfl _)⟩⟩
  | @stuck m old s₁ s₀ hs₁ hattach hopen hold hdistinct hs₀ =>
      cases hn
      cases hs.symm.trans hs₁
      have henabled : s.enabled (.resume n) = true := by
        simp [Session.enabled, hattach]
      exact ⟨_, (put_of_ne hdistinct.symm ..).trans (put_self ..),
        Session.onward_leaving henabled,
        .inr ⟨rfl, Session.idle_leaving _ s⟩⟩

/-- In every step of a run, what passes through a session is accounted for. -/
theorem passes_of_next {e e' : GatewayRun R} (hnext : e.Next event e')
    (hs : e.state.sessions n = some s) :
    ∃ s', e'.state.sessions n = some s' ∧ s.Onward s' ∧
      s.Passes R (e.state.passing R n event) s' := by
  have heffect := effect_of_next hnext
  have hstate : e'.state = e.state.dispatch R event := hnext.1.2.2
  by_cases hn : event.session = some n
  · obtain ⟨s', hs', honward, hcases⟩ := heffect.own hs hn
    refine ⟨s', hs', honward, ?_⟩
    rw [hstate] at hs'
    rw [passing_eq hs hs', if_pos hn]
    rcases hcases with ⟨p, hcode, rfl⟩ | ⟨hcode, hidle⟩
    · exact Session.passes_code hcode
    · rw [input_of_code hcode]
      exact Session.passes_idle hidle
  · have hidle : ∃ s', e'.state.sessions n = some s' ∧ s.Onward s' ∧
        s.Idle s' := by
      rcases heffect.other (registry e) hs hn with hs' | hs'
      · exact ⟨s, hs', refl_of Session.Onward s, refl_of Session.Idle s⟩
      · exact ⟨s.shut, hs', (Session.works_shut s).toOnward, Session.idle_shut s⟩
    obtain ⟨s', hs', honward, hidle⟩ := hidle
    refine ⟨s', hs', honward, ?_⟩
    rw [hstate] at hs'
    rw [passing_eq hs hs', if_neg hn]
    exact Session.passes_idle hidle

/-- Before it attaches, nothing passes through a session. -/
theorem passing_none {g : GatewayState} (hs : g.sessions n = none) :
    g.passing R n event = [] := by
  rw [GatewayState.passing, hs]

theorem GatewayState.put_none {g : GatewayState} {m : ℕ} {s₁ : Session}
    (hn : g.sessions n = none) (hm : g.sessions m = some s₁) (s₂ : Session) :
    (g.put m s₂).sessions n = none := by
  rw [sessions_put, if_neg]
  · exact hn
  · rintro rfl
    rw [hn] at hm
    cases hm

/-- A session begins as `attachSession` makes it. -/
theorem attached_of_next {e e' : GatewayRun R} (hnext : e.Next event e')
    (hs : e.state.sessions n = none) (hs' : e'.state.sessions n = some s') :
    ∃ uid, event = .attach uid ∧ s' = { uid } := by
  have heffect := effect_of_next hnext
  generalize e'.state = g' at heffect hs'
  cases heffect with
  | attach uid =>
      have hput : (e.state.put e.state.nextSession { uid }).sessions n =
          some s' := hs'
      rw [GatewayState.sessions_put] at hput
      split at hput
      · cases hput
        exact ⟨uid, rfl, rfl⟩
      · rw [hs] at hput
        cases hput
  | code hm hs₁ henabled hcode =>
      cases (GatewayState.put_none hs hs₁ _).symm.trans hs'
  | cleanup hm hs₁ henabled hcode hclosed =>
      cases (GatewayState.put_none hs hs₁ _).symm.trans hs'
  | fail hs₁ hreason => cases (GatewayState.put_none hs hs₁ _).symm.trans hs'
  | join hs₁ hattach hopen hold =>
      cases (GatewayState.put_none hs hs₁ _).symm.trans hs'
  | replace hs₁ hattach hopen hold hne hs₀ =>
      have hnone := GatewayState.put_none hs hs₁
      cases (GatewayState.put_none (hnone _) ((GatewayState.put_of_ne hne ..).trans
        hs₀) _).symm.trans hs'
  | stuck hs₁ hattach hopen hold hne hs₀ =>
      have hnone := GatewayState.put_none hs hs₁
      cases (GatewayState.put_none (hnone _) ((GatewayState.put_of_ne hne ..).trans
        hs₀) _).symm.trans hs'

/-- Before the session attaches, nothing passes through it. -/
theorem traffic_none (e : GatewayRun R) (hs : e.state.sessions n = none) :
    traffic R n e.history = [] := by
  revert hs
  apply Execution.induct (P := fun e : GatewayRun R =>
    (Execution.state e).sessions n = none →
      traffic R n (Execution.history e) = [])
  · intro e hnil _ _
    rw [hnil]
    rfl
  · intro e e' event ih hnext hs
    rw [traffic_next hnext]
    cases hbefore : e.state.sessions n with
    | none =>
        rw [ih hbefore, passing_none hbefore]
        rfl
    | some s =>
        obtain ⟨s', hs', -⟩ := passes_of_next hnext hbefore
        rw [hs] at hs'
        cases hs'

/-- Induction over the events since the session attached. -/
theorem session_induct {P : List (GatewayState × GatewayEvent) → Session → Prop}
    (hattach : ∀ past uid, traffic R n past = [] → P past { uid })
    (hstep : ∀ g event past s s', P past s → s.Onward s' →
      s.Passes R (g.passing R n event) s' → P ((g, event) :: past) s')
    (e : GatewayRun R) {s : Session} (hs : e.state.sessions n = some s) :
    P e.history s := by
  revert s
  apply Execution.induct (P := fun e : GatewayRun R =>
    ∀ {s}, (Execution.state e).sessions n = some s →
      P (Execution.history e) s)
  · intro e _ hinit s hs
    rw [show Execution.state e = {} from hinit] at hs
    cases hs
  · intro e e' event ih hnext s hs
    cases hbefore : e.state.sessions n with
    | none =>
        obtain ⟨uid, -, rfl⟩ := attached_of_next hnext hbefore hs
        apply hattach
        rw [traffic_next hnext, passing_none hbefore, traffic_none e hbefore]
        rfl
    | some s₁ =>
        obtain ⟨s', hs', honward, hpasses⟩ := passes_of_next hnext hbefore
        cases hs'.symm.trans hs
        rw [hnext.2]
        exact hstep _ _ _ s₁ s (ih hbefore) honward hpasses

theorem input_outputs (s : Session) (event : GatewayEvent) :
    (s.input R event).filterMap Traffic.frame = [] ∧
      (s.input R event).filterMap Traffic.envelope = [] := by
  have hnone : ∀ x ∈ s.input R event,
      Traffic.frame x = none ∧ Traffic.envelope x = none := by
    intro x hx
    rw [Session.input.eq_def] at hx
    split at hx
    · obtain ⟨message, -, rfl⟩ := List.mem_map.mp hx
      exact ⟨rfl, rfl⟩
    · split at hx
      · obtain ⟨envelope, -, rfl⟩ := List.mem_map.mp hx
        exact ⟨rfl, rfl⟩
      · cases hx
    · cases hx
  rw [List.filterMap_eq_nil_iff, List.filterMap_eq_nil_iff]
  exact ⟨fun x hx => (hnone x hx).1, fun x hx => (hnone x hx).2⟩

theorem outputs_append {s s' : Session} (h : s.Outputs s') :
    s.sent ++ (s.output s').filterMap Traffic.frame = s'.sent ∧
      s.written ++ (s.output s').filterMap Traffic.envelope = s'.written := by
  have hsent := List.prefix_iff_eq_append.mp h.1
  have hwritten := List.prefix_iff_eq_append.mp h.2
  have hframes : ∀ l : List BrowserFrame,
      (l.map Traffic.toBrowser).filterMap Traffic.frame = l ∧
        (l.map Traffic.toBrowser).filterMap Traffic.envelope = [] := by
    intro l
    simp [Traffic.frame, Traffic.envelope, Function.comp_def]
  have henvelopes : ∀ l : List EnvelopeObject,
      (l.map Traffic.toServer).filterMap Traffic.frame = [] ∧
        (l.map Traffic.toServer).filterMap Traffic.envelope = l := by
    intro l
    simp [Traffic.frame, Traffic.envelope, Function.comp_def]
  rw [Session.output, List.filterMap_append, List.filterMap_append,
    (hframes _).1, (hframes _).2, (henvelopes _).1, (henvelopes _).2,
    List.append_nil, List.nil_append]
  exact ⟨hsent, hwritten⟩

/-- The traffic has everything that the session sent, in order. -/
theorem outputs_traffic (e : GatewayRun R) {s : Session}
    (hs : e.state.sessions n = some s) :
    (traffic R n e.history).filterMap Traffic.frame = s.sent ∧
      (traffic R n e.history).filterMap Traffic.envelope = s.written := by
  revert s
  apply Execution.induct (P := fun e : GatewayRun R =>
    ∀ {s}, (Execution.state e).sessions n = some s →
      (traffic R n (Execution.history e)).filterMap Traffic.frame = s.sent ∧
        (traffic R n (Execution.history e)).filterMap Traffic.envelope =
          s.written)
  · intro e _ hinit s hs
    rw [show Execution.state e = {} from hinit] at hs
    cases hs
  · intro e e' event ih hnext s' hs'
    rw [traffic_next hnext]
    cases hbefore : e.state.sessions n with
    | none =>
        obtain ⟨uid, -, rfl⟩ := attached_of_next hnext hbefore hs'
        rw [passing_none hbefore, traffic_none e hbefore]
        exact ⟨rfl, rfl⟩
    | some s =>
        obtain ⟨s₁, hs₁, honward, -⟩ := passes_of_next hnext hbefore
        cases hs₁.symm.trans hs'
        obtain ⟨hsent, hwritten⟩ := ih hbefore
        obtain ⟨hframes, henvelopes⟩ := outputs_append honward.outputs
        have hdispatch : (e.state.dispatch R event).sessions n = some s' :=
          (congrArg (fun g => GatewayState.sessions g n) hnext.1.2.2).symm.trans
            hs'
        rw [passing_eq hbefore hdispatch, List.filterMap_append,
          List.filterMap_append, List.filterMap_append, List.filterMap_append,
          hsent, hwritten]
        split
        · rw [(input_outputs s event).1, (input_outputs s event).2]
          exact ⟨hframes, henvelopes⟩
        · exact ⟨hframes, henvelopes⟩

end Steps

end ReliableDelivery
