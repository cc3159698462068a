import ReliableDelivery.Gateway.Attachment
import ReliableDelivery.Gateway.Correlation

/-!
# Where the traffic of a session comes from

A session shows its browser a message only when it reads a CHAT_PUSH, and it
writes a CHAT_REQ only when its browser has sent a `send_message` that passes the
checks of `handleSendMessage`.  `Session.Adds` says what code adds to the frames
and to the envelopes of a session.
-/

namespace ReliableDelivery

open Decimal Ecmascript Matching TransitionSystem

def BrowserFrame.isMessage : BrowserFrame → Bool
  | .message _ _ _ _ _ _ => true
  | _ => false

/-- The message asks to send this text to this user, and passes all checks. -/
structure Composed (R : Runtime) (message : BrowserMessage) (toUid : ℕ)
    (content clientMsgId : Text) : Prop where
  sends : Session.isText (property (ascii "type") message) (ascii "send_message")
  receiver : ∃ x, toNumber R.engine (property (ascii "to_uid") message) = .ok x ∧
    x.isInteger = true ∧ x.nonpositive = false ∧ x.toNat = toUid
  text : ∃ untrimmed, toTextOrEmpty R.engine (property (ascii "content") message) =
    .ok untrimmed ∧ trim untrimmed = content
  notEmpty : content ≠ []
  name : toTextOrEmpty R.engine (property (ascii "client_msg_id") message) =
    .ok clientMsgId
  named : clientMsgId ≠ []

namespace Session

/-- The frame in which a CHAT_PUSH is passed on. -/
def pushFrame (R : Runtime) (now : ℕ) (envelope : EnvelopeObject) : BrowserFrame :=
  match envelope.payload with
  | some (.chatPush msgId fromUid toUid content serverTimestampMs history) =>
      .message msgId fromUid toUid (R.utf8Read content)
        (if serverTimestampMs = 0 then now else serverTimestampMs) history
  | _ => .message 0 0 0 (R.utf8Read []) now false

/-- The frame passes on a CHAT_PUSH that the session reads in the event. -/
def Shows (R : Runtime) (s : Session) (event : GatewayEvent) (frame : BrowserFrame) :
    Prop :=
  ∃ n now chunk decoded x, event = .imData n now chunk ∧
    ImProtocol.decode R.protobufjs (s.client.recvBuffer ++ chunk) = .ok decoded ∧
    x ∈ decoded.envelopes ∧ x.type = 4 ∧ frame = pushFrame R now x

/-- What a session writes for its user in an event. -/
inductive Writes (R : Runtime) (uid : ℕ) : GatewayEvent → EnvelopeObject → Prop
  | login (n now seq : ℕ) :
      Writes R uid (.imConnect n now)
        { type := 1, seq, timestampMs := now, payload := some (.loginReq uid) }
  | chat (n now seq : ℕ) (data : RawData) {message : BrowserMessage} {toUid : ℕ}
      {content clientMsgId : Text} (hparse : parseMessage R data = some message)
      (hcomposed : Composed R message toUid content clientMsgId) :
      Writes R uid (.wsMessage n now data)
        { type := 3, seq, timestampMs := now,
          payload := some (.chatReq uid toUid (R.utf8Write content)
            (R.utf8Write clientMsgId)) }
  | ack (n now msgId seq : ℕ) (data : RawData) :
      Writes R uid (.wsMessage n now data) (ackEnvelope now msgId seq)

/-- Nothing is added but messages that meet `Q`, frames of other kinds and
envelopes that meet `W`. -/
structure Adds (Q : BrowserFrame → Prop) (W : EnvelopeObject → Prop)
    (s s' : Session) : Prop where
  sent : ∃ frames, s'.sent = s.sent ++ frames ∧
    ∀ frame ∈ frames, frame.isMessage = true → Q frame
  written : ∃ envelopes, s'.written = s.written ++ envelopes ∧
    ∀ envelope ∈ envelopes, W envelope

section Adds

variable {Q : BrowserFrame → Prop} {W : EnvelopeObject → Prop} {R : Runtime}
  {s s' : Session}

instance : IsPreorder Session (Adds Q W) where
  refl _ := ⟨⟨[], (List.append_nil _).symm, by simp⟩,
    [], (List.append_nil _).symm, by simp⟩
  trans _ _ _ h h' := by
    obtain ⟨⟨frames, hsent, hframes⟩, envelopes, hwritten, henvelopes⟩ := h
    obtain ⟨⟨frames', hsent', hframes'⟩, envelopes', hwritten', henvelopes'⟩ := h'
    refine ⟨⟨frames ++ frames', ?_, ?_⟩, envelopes ++ envelopes', ?_, ?_⟩
    · rw [hsent', hsent, List.append_assoc]
    · intro frame hframe
      rcases List.mem_append.mp hframe with hframe | hframe
      · exact hframes frame hframe
      · exact hframes' frame hframe
    · rw [hwritten', hwritten, List.append_assoc]
    · intro envelope henvelope
      rcases List.mem_append.mp henvelope with henvelope | henvelope
      · exact henvelopes envelope henvelope
      · exact henvelopes' envelope henvelope

theorem adds_of_eq (hsent : s'.sent = s.sent) (hwritten : s'.written = s.written) :
    s.Adds Q W s' :=
  ⟨⟨[], hsent.trans (List.append_nil _).symm, by simp⟩,
    [], hwritten.trans (List.append_nil _).symm, by simp⟩

theorem Adds.after {s₁ : Session} (h : s₁.Adds Q W s') (hsent : s₁.sent = s.sent)
    (hwritten : s₁.written = s.written) : s.Adds Q W s' :=
  trans_of (Adds Q W) (adds_of_eq hsent hwritten) h

theorem adds_send {frame : BrowserFrame} (hframe : frame.isMessage = true → Q frame)
    (s : Session) : s.Adds Q W (s.send frame) := by
  refine ⟨?_, [], (send_written frame s).trans (List.append_nil _).symm, by simp⟩
  rcases send_sent frame s with hsent | hsent
  · exact ⟨[], hsent.trans (List.append_nil _).symm, by simp⟩
  · exact ⟨[frame], hsent, by simpa using hframe⟩

/-- A frame of another kind. -/
theorem adds_send_other {frame : BrowserFrame} (hframe : frame.isMessage = false)
    (s : Session) : s.Adds Q W (s.send frame) :=
  adds_send (fun h => absurd (hframe.symm.trans h) Bool.false_ne_true) s

theorem adds_shut (s : Session) : s.Adds Q W s.shut := by
  rw [shut]
  split
  · exact adds_of_eq rfl rfl
  · exact adds_of_eq rfl rfl

theorem adds_disconnected (s : Session) : s.Adds Q W s.disconnected := by
  rw [disconnected]
  split
  · exact adds_of_eq rfl rfl
  · exact adds_of_eq rfl rfl

theorem adds_dropped (s : Session) : s.Adds Q W s.dropped := by
  rw [dropped]
  split
  · exact (adds_disconnected { s with registered := false }).after rfl rfl
  · exact adds_of_eq rfl rfl

theorem adds_leaving (event : GatewayEvent) (s : Session) :
    s.Adds Q W (s.leaving event) := by
  have hfirst : s.Adds Q W { s with attach := .done } := adds_of_eq rfl rfl
  cases event with
  | wsError n => exact adds_of_eq rfl rfl
  | wsClose n => exact adds_of_eq rfl rfl
  | resume n =>
      rw [leaving]
      split
      · exact trans_of (Adds Q W) hfirst
          (trans_of (Adds Q W) (adds_send_other rfl _) (adds_shut _))
      · exact hfirst
  | _ => exact adds_of_eq rfl rfl

theorem within_adds_settleLogin (outcome : Attach) :
    Js.Within (Adds Q W) (settleLogin outcome) := by
  intro s
  obtain ⟨s', hexec, -, hsent, hwritten⟩ := settleLogin_books outcome s
  rw [hexec]
  exact adds_of_eq hsent hwritten

theorem within_adds_handleError (reason : Text) :
    Js.Within (Adds Q W) (handleError reason) := by
  refine (within_adds_settleLogin _).bind fun _ => ?_
  apply Js.within_get_bind
  intro s
  split
  · exact adds_send_other rfl s
  · exact adds_of_eq rfl rfl

theorem within_adds_handleClose (reason : Text) :
    Js.Within (Adds Q W) (handleClose R reason) := by
  refine Js.Within.bind ?_ fun _ => (within_adds_settleLogin _).bind fun _ => ?_
  · exact fun s => adds_of_eq rfl rfl
  · apply Js.within_get_bind
    intro s
    split
    · refine ((show Js.Within (Adds Q W) (sendJson (.error reason)) from
        adds_send_other rfl).bind fun _ => ?_) s
      intro s
      rw [exec_close]
      exact adds_shut s
    · exact adds_of_eq rfl rfl

theorem within_adds_sendEnvelope {envelope : EnvelopeObject} (h : W envelope) :
    Js.Within (Adds Q W) (sendEnvelope R envelope) := by
  intro s
  rcases exec_sendEnvelope R s envelope with hsend | ⟨error, hsend⟩
  · rw [hsend]
    exact ⟨⟨[], (List.append_nil _).symm, by simp⟩, [envelope], rfl, by simpa using h⟩
  · rw [hsend]
    exact adds_of_eq rfl rfl

/-! ### Messages of the browser -/

/-- A message that has been checked goes to the server, or is refused. -/
theorem adds_sendChat {n now toUid : ℕ} {data : RawData} {message : BrowserMessage}
    {content clientMsgId : Text} (hparse : parseMessage R data = some message)
    (hcomposed : Composed R message toUid content clientMsgId) (s : Session) :
    s.Adds Q (Writes R s.uid (.wsMessage n now data))
      (Js.exec (tryCatch (sendChat R now toUid content clientMsgId)
        fun error => refuse clientMsgId error.message) s).2 := by
  rw [Js.exec_tryCatch, exec_sendChat]
  rcases exec_sendEnvelope R (s.expecting clientMsgId)
      (s.chatRequest R now toUid content clientMsgId) with hsend | ⟨error, hsend⟩
  · rw [hsend]
    have hwrites : Writes R s.uid (.wsMessage n now data)
        (s.chatRequest R now toUid content clientMsgId) :=
      .chat n now s.client.nextSeq data hparse hcomposed
    exact ⟨⟨[], (List.append_nil _).symm, by simp⟩, [_], rfl, by simpa using hwrites⟩
  · rw [hsend]
    exact (adds_send_other rfl (s.expecting clientMsgId)).after rfl rfl

theorem adds_handleSendMessage {n now : ℕ} {data : RawData}
    {message : BrowserMessage} (hparse : parseMessage R data = some message)
    (htype : isText (property (ascii "type") message) (ascii "send_message"))
    (s : Session) :
    s.Adds Q (Writes R s.uid (.wsMessage n now data))
      ((handleSendMessage R now message).exec s).2 := by
  rw [handleSendMessage, Js.exec_bind, Js.exec_get]
  dsimp only
  rw [Js.exec_bind]
  cases hto : toNumber R.engine (property (ascii "to_uid") message) with
  | error e => exact adds_of_eq rfl rfl
  | ok toUid =>
      dsimp only [Js.ofExcept, Js.exec_pure]
      rw [Js.exec_bind]
      cases hcontent : toTextOrEmpty R.engine
          (property (ascii "content") message) with
      | error e => exact adds_of_eq rfl rfl
      | ok content =>
          dsimp only [Js.ofExcept, Js.exec_pure]
          rw [Js.exec_bind]
          cases hclient : toTextOrEmpty R.engine
              (property (ascii "client_msg_id") message) with
          | error e => exact adds_of_eq rfl rfl
          | ok clientMsgId =>
              dsimp only [Js.ofExcept, Js.exec_pure]
              split
              · exact adds_send_other rfl s
              · split
                · exact adds_send_other rfl s
                · next hinteger =>
                    split
                    · exact adds_send_other rfl s
                    · next hempty =>
                        split
                        · exact adds_send_other rfl s
                        · next hnamed =>
                            simp only [not_or, Bool.not_eq_false,
                              Bool.not_eq_true] at hinteger
                            have hcomposed : Composed R message toUid.toNat
                                (trim content) clientMsgId :=
                              ⟨htype, ⟨toUid, hto, hinteger.1, hinteger.2, rfl⟩,
                                ⟨content, hcontent, rfl⟩, hempty, hclient, hnamed⟩
                            exact adds_sendChat hparse hcomposed s

theorem adds_handleMessageAck {n now : ℕ} {data : RawData}
    {message : BrowserMessage} (s : Session) :
    s.Adds Q (Writes R s.uid (.wsMessage n now data))
      ((handleMessageAck R now message).exec s).2 := by
  rcases exec_handleMessageAck (R := R) (s := s) now message with
    ⟨hsame, -⟩ | ⟨x, -, -, -, -, ⟨-, hunknown⟩ | ⟨seq, -, hcrossed | hwrote⟩⟩
  · rw [hsame]
    exact adds_of_eq rfl rfl
  · rw [hunknown]
    exact adds_send_other rfl s
  · rw [hcrossed]
    exact adds_of_eq rfl rfl
  · rw [hwrote]
    have hwrites : Writes R s.uid (.wsMessage n now data)
        (ackEnvelope now x.toNat seq) := .ack n now x.toNat seq data
    exact ⟨⟨[], (List.append_nil _).symm, by simp⟩, [_], rfl, by simpa using hwrites⟩

theorem adds_handleMessage (n now : ℕ) (data : RawData) (s : Session) :
    s.Adds Q (Writes R s.uid (.wsMessage n now data))
      ((handleMessage R now data).exec s).2 := by
  rw [handleMessage]
  cases hparse : parseMessage R data with
  | none => exact adds_send_other rfl s
  | some message =>
      dsimp only
      split
      · next htype => exact adds_handleSendMessage hparse htype s
      · split
        · exact adds_handleMessageAck s
        · split
          · exact adds_send_other rfl s
          · exact adds_send_other rfl s

/-! ### Envelopes of the server -/

theorem exec_handleChatPush_eq (now : ℕ) (envelope : EnvelopeObject) :
    (handleChatPush R now envelope).exec s =
      (.ok (), (s.pushed envelope).send (pushFrame R now envelope)) := by
  obtain ⟨type, seq, timestampMs, payload⟩ := envelope
  rcases payload with _ | payload
  · rfl
  · cases payload with
    | chatPush msgId fromUid toUid content serverTimestampMs history =>
        cases history with
        | true => rfl
        | false => rfl
    | _ => rfl

theorem within_adds_handleEnvelope {now : ℕ} {x : EnvelopeObject}
    (hx : x.type = 4 → Q (pushFrame R now x)) :
    Js.Within (Adds Q W) (handleEnvelope R now x) := by
  rw [handleEnvelope]
  split
  · rw [handleLoginResponse]
    split
    · exact within_adds_settleLogin _
    · exact within_adds_settleLogin _
    · exact within_adds_settleLogin _
  · split
    · intro s
      rcases exec_handleAck (R := R) (s := s) x with
        ⟨-, hexec⟩ | ⟨clientMsgId, reason, -, hexec⟩
      · rw [hexec]
        exact adds_of_eq rfl rfl
      · rw [hexec]
        exact (adds_send_other rfl (s.settled x.acked.1)).after rfl rfl
    · split
      · next htype =>
          intro s
          rw [exec_handleChatPush_eq]
          obtain ⟨hsent, hwritten⟩ := pushed_sent x s
          exact (adds_send (fun _ => hx htype) (s.pushed x)).after hsent hwritten
      · exact Js.within_pure ()

theorem within_adds_handleEnvelopes (now : ℕ) {envelopes : List EnvelopeObject}
    (h : ∀ x ∈ envelopes, x.type = 4 → Q (pushFrame R now x)) :
    Js.Within (Adds Q W) (handleEnvelopes R now envelopes) := by
  induction envelopes with
  | nil => exact Js.within_pure ()
  | cons x envelopes ih =>
      exact (within_adds_handleEnvelope (h x List.mem_cons_self)).bind fun _ =>
        ih fun y hy => h y (List.mem_cons_of_mem x hy)

theorem adds_handleData (n now : ℕ) (chunk : Bytes) (s : Session) :
    s.Adds (Shows R s (.imData n now chunk)) W
      ((handleData R now chunk).exec s).2 := by
  cases hdecode : ImProtocol.decode R.protobufjs (s.client.recvBuffer ++ chunk) with
  | error message =>
      rw [exec_handleData_error now hdecode]
      have hclose : Js.Within (Adds (Shows R s (.imData n now chunk)) W) (do
          handleError (R.utf8Read message)
          closeClient) :=
        (within_adds_handleError _).bind fun _ => adds_disconnected
      exact (hclose _).after rfl rfl
  | ok decoded =>
      rw [exec_handleData_ok now hdecode]
      have hshows : ∀ x ∈ decoded.envelopes, x.type = 4 →
          Shows R s (.imData n now chunk) (pushFrame R now x) :=
        fun x hx htype => ⟨n, now, chunk, decoded, x, rfl, hdecode, hx, htype, rfl⟩
      exact (within_adds_handleEnvelopes now hshows _).after rfl rfl

/-- What the code of an event adds. -/
theorem adds_code {event : GatewayEvent} {p : Js Session Unit}
    (hcode : event.code R = some p) (s : Session) :
    s.Adds (Shows R s event) (Writes R s.uid event) (p.exec s).2 := by
  cases event with
  | imConnect n now =>
      cases hcode
      rw [exec_handleConnect]
      have hwrites : Writes R s.uid (.imConnect n now) (s.loginRequest now) :=
        .login n now s.client.nextSeq
      exact (within_adds_sendEnvelope hwrites s.connected).after rfl rfl
  | imData n now chunk =>
      cases hcode
      exact adds_handleData n now chunk s
  | imError n reason =>
      cases hcode
      exact (within_adds_handleError reason { s with socket := .destroyed }).after
        rfl rfl
  | imClose n =>
      cases hcode
      exact (within_adds_handleClose _ { s with socket := .closed }).after rfl rfl
  | wsMessage n now data =>
      cases hcode
      exact adds_handleMessage n now data s
  | wsClosing n =>
      cases hcode
      exact adds_of_eq rfl rfl
  | attach uid => cases hcode
  | wsError n => cases hcode
  | wsClose n => cases hcode
  | resume n => cases hcode

end Adds

end Session

/-! ## Steps of the gateway -/

section Steps

variable {R : Runtime} {n : ℕ} {s s' : Session} {event : GatewayEvent}

/-- What an event of the session itself adds to what it has sent. -/
theorem GatewayState.Effect.adds {g g' : GatewayState} (h : g.Effect R event g')
    (hs : g.sessions n = some s) (hn : event.session = some n) :
    ∃ s', g'.sessions n = some s' ∧
      s.Adds (s.Shows R event) (Session.Writes R s.uid event) s' := by
  have hleaving : ∀ event', s.Adds (s.Shows R event) (Session.Writes R s.uid event)
      (s.leaving event') := fun event' => Session.adds_leaving event' s
  have honline : ∀ event', s.Adds (s.Shows R event) (Session.Writes R s.uid event)
      ((s.leaving event').send (.online s.uid n)) := fun event' =>
    trans_of (Session.Adds _ _) (hleaving event') (Session.adds_send_other rfl _)
  cases h with
  | attach uid => cases hn
  | @code event m s₁ p hm hs₁ henabled hcode =>
      cases hn.symm.trans hm
      cases hs.symm.trans hs₁
      exact ⟨_, put_self .., Session.adds_code hcode s⟩
  | @cleanup event m s₁ hm hs₁ henabled hcode hclosed =>
      cases hn.symm.trans hm
      cases hs.symm.trans hs₁
      exact ⟨_, put_self .., trans_of (Session.Adds _ _) (hleaving event)
        (Session.adds_dropped _)⟩
  | @fail m s₁ reason hs₁ hreason =>
      cases hn
      cases hs.symm.trans hs₁
      exact ⟨_, put_self .., hleaving _⟩
  | @join m s₁ hs₁ hattach hopen hold =>
      cases hn
      cases hs.symm.trans hs₁
      exact ⟨_, put_self .., honline _⟩
  | @replace m old s₁ s₀ hs₁ hattach hopen hold hdistinct hs₀ =>
      cases hn
      cases hs.symm.trans hs₁
      exact ⟨_, (put_of_ne hdistinct.symm ..).trans (put_self ..), honline _⟩
  | @stuck m old s₁ s₀ hs₁ hattach hopen hold hdistinct hs₀ =>
      cases hn
      cases hs.symm.trans hs₁
      exact ⟨_, (put_of_ne hdistinct.symm ..).trans (put_self ..), hleaving _⟩

/-- In every step of a run, what a session adds comes from the event, if the event
is its own; otherwise it adds nothing of the kind. -/
theorem adds_of_next {e e' : GatewayRun R} (hnext : e.Next event e')
    (hs : e.state.sessions n = some s) :
    ∃ s', e'.state.sessions n = some s' ∧ s.Onward s' ∧
      s.Adds (fun frame => event.session = some n ∧ s.Shows R event frame)
        (fun x => event.session = some n ∧ Session.Writes R s.uid event x) s' := by
  have heffect := effect_of_next hnext
  obtain ⟨s', hs', honward, -⟩ := passes_of_next hnext hs
  refine ⟨s', hs', honward, ?_⟩
  by_cases hn : event.session = some n
  · obtain ⟨s₁, hs₁, hadds⟩ := heffect.adds hs hn
    cases hs₁.symm.trans hs'
    simpa only [hn, true_and] using hadds
  · rcases heffect.other (registry e) hs hn with hsame | hshut
    · cases hsame.symm.trans hs'
      exact Session.adds_of_eq rfl rfl
    · cases hshut.symm.trans hs'
      exact Session.adds_shut s

/-- What a session has written was written for its user in an earlier event. -/
theorem writes_of_written (e : GatewayRun R) (hs : e.state.sessions n = some s)
    {x : EnvelopeObject} (hx : x ∈ s.written) :
    ∃ g event, (g, event) ∈ e.history ∧ event.session = some n ∧
      Session.Writes R s.uid event x := by
  revert s
  apply Execution.induct (P := fun e : GatewayRun R => ∀ {s},
    (Execution.state e).sessions n = some s → x ∈ s.written →
      ∃ g event, (g, event) ∈ e.history ∧ event.session = some n ∧
        Session.Writes R s.uid event x)
  · intro e _ hinit s hs hx
    rw [show Execution.state e = {} from hinit] at hs
    cases hs
  · intro e e' event ih hnext s' hs' hx
    cases hs : e.state.sessions n with
    | none =>
        obtain ⟨uid, -, rfl⟩ := attached_of_next hnext hs hs'
        cases hx
    | some s =>
        obtain ⟨s₁, hs₁, honward, hadds⟩ := adds_of_next hnext hs
        cases hs₁.symm.trans hs'
        obtain ⟨envelopes, hwritten, henvelopes⟩ := hadds.written
        rw [hwritten, List.mem_append] at hx
        rw [honward.uid]
        rcases hx with hx | hx
        · obtain ⟨g, event', hmem, hrest⟩ := ih hs hx
          exact ⟨g, event', hnext.later.mem_history hmem, hrest⟩
        · exact ⟨e.state, event, hnext.mem_history, henvelopes x hx⟩

/-! ### What a session has read -/

theorem input_of_passing {g : GatewayState} {x : Traffic}
    (hx : x ∈ g.passing R n event) (hframe : x.frame = none)
    (henvelope : x.envelope = none) :
    ∃ s, g.sessions n = some s ∧ event.session = some n ∧ x ∈ s.input R event := by
  rw [GatewayState.passing] at hx
  split at hx
  · next s s' hs hs' =>
      rcases List.mem_append.mp hx with hinput | houtput
      · split at hinput
        · next hn => exact ⟨s, hs, hn, hinput⟩
        · cases hinput
      · rcases List.mem_append.mp houtput with hsent | hwritten
        · obtain ⟨frame, -, rfl⟩ := List.mem_map.mp hsent
          cases hframe
        · obtain ⟨envelope, -, rfl⟩ := List.mem_map.mp hwritten
          cases henvelope
  · cases hx

/-- Envelopes of the server come out of bytes. -/
theorem decoded_of_passing {g : GatewayState} {x : EnvelopeObject}
    (hx : .fromServer x ∈ g.passing R n event) :
    ∃ s now chunk decoded, g.sessions n = some s ∧ event = .imData n now chunk ∧
      ImProtocol.decode R.protobufjs (s.client.recvBuffer ++ chunk) = .ok decoded ∧
      x ∈ decoded.envelopes := by
  obtain ⟨s, hs, hn, hinput⟩ := input_of_passing hx rfl rfl
  rw [Session.input.eq_def] at hinput
  split at hinput
  · obtain ⟨message, -, heq⟩ := List.mem_map.mp hinput
    cases heq
  · next m now chunk =>
      cases hn
      split at hinput
      · next decoded hdecode =>
          obtain ⟨y, hy, heq⟩ := List.mem_map.mp hinput
          cases heq
          exact ⟨s, now, chunk, decoded, hs, rfl, hdecode, hy⟩
      · cases hinput
  · cases hinput

theorem passing_of_decoded {e e' : GatewayRun R} (hnext : e.Next event e')
    (hs : e.state.sessions n = some s) {now : ℕ} {chunk : Bytes}
    (hevent : event = .imData n now chunk) {decoded : ImProtocol.Decoded}
    (hdecode : ImProtocol.decode R.protobufjs (s.client.recvBuffer ++ chunk) =
      .ok decoded) {x : EnvelopeObject} (hx : x ∈ decoded.envelopes) :
    .fromServer x ∈ e.state.passing R n event := by
  obtain ⟨s', hs', -⟩ := passes_of_next hnext hs
  have hdispatch : (e.state.dispatch R event).sessions n = some s' :=
    (congrArg (fun g => GatewayState.sessions g n) hnext.1.2.2).symm.trans hs'
  rw [passing_eq hs hdispatch, hevent]
  apply List.mem_append_left
  simp only [GatewayEvent.session, if_pos, Session.input, hdecode]
  exact List.mem_map_of_mem hx

/-- Messages of the browser come in events of the session. -/
theorem message_of_mem_traffic {past : List (GatewayState × GatewayEvent)}
    {message : BrowserMessage} (h : .fromBrowser message ∈ traffic R n past) :
    ∃ g now data, (g, .wsMessage n now data) ∈ past ∧
      Session.parseMessage R data = some message := by
  induction past with
  | nil => cases h
  | cons step past ih =>
      obtain ⟨g, event⟩ := step
      rcases List.mem_append.mp h with hold | hnew
      · obtain ⟨g', now, data, hmem, hparse⟩ := ih hold
        exact ⟨g', now, data, List.mem_cons_of_mem _ hmem, hparse⟩
      · obtain ⟨s, -, hn, hinput⟩ := input_of_passing hnew rfl rfl
        rw [Session.input.eq_def] at hinput
        split at hinput
        · next m now data =>
            cases hn
            obtain ⟨message', hmessage', heq⟩ := List.mem_map.mp hinput
            cases heq
            exact ⟨g, now, data, List.mem_cons_self, Option.mem_toList.mp hmessage'⟩
        · split at hinput
          · obtain ⟨y, -, heq⟩ := List.mem_map.mp hinput
            cases heq
          · cases hinput
        · cases hinput

/-- What a session shows its browser, it has read. -/
theorem read_of_sent (e : GatewayRun R) (hs : e.state.sessions n = some s)
    {frame : BrowserFrame} (hframe : frame ∈ s.sent)
    (hmessage : frame.isMessage = true) :
    ∃ x now, .fromServer x ∈ traffic R n e.history ∧ x.type = 4 ∧
      frame = Session.pushFrame R now x := by
  revert s
  apply Execution.induct (P := fun e : GatewayRun R => ∀ {s},
    (Execution.state e).sessions n = some s → frame ∈ s.sent →
      ∃ x now, .fromServer x ∈ traffic R n e.history ∧ x.type = 4 ∧
        frame = Session.pushFrame R now x)
  · intro e _ hinit s hs
    rw [show Execution.state e = {} from hinit] at hs
    cases hs
  · intro e e' event ih hnext s' hs' hframe
    rw [traffic_next hnext]
    cases hs : e.state.sessions n with
    | none =>
        obtain ⟨uid, -, rfl⟩ := attached_of_next hnext hs hs'
        cases hframe
    | some s =>
        obtain ⟨s₁, hs₁, -, hadds⟩ := adds_of_next hnext hs
        cases hs₁.symm.trans hs'
        obtain ⟨frames, hsent, hframes⟩ := hadds.sent
        rw [hsent, List.mem_append] at hframe
        rcases hframe with hold | hnew
        · obtain ⟨x, now, hx, hrest⟩ := ih hs hold
          exact ⟨x, now, List.mem_append_left _ hx, hrest⟩
        · obtain ⟨hn, m, now, chunk, decoded, x, hevent, hdecode, hx, hrest⟩ :=
            hframes frame hnew hmessage
          rw [hevent] at hn
          cases hn
          exact ⟨x, now,
            List.mem_append_right _ (passing_of_decoded hnext hs hevent hdecode hx),
            hrest⟩

/-- A push that is no history, as it was sent. -/
theorem livePush_eq_some {x : EnvelopeObject} {msgId : ℕ}
    (h : (Traffic.fromServer x).livePush = some msgId) :
    x.type = 4 ∧ ∃ fromUid toUid content serverTimestampMs, x.payload =
      some (.chatPush msgId fromUid toUid content serverTimestampMs false) := by
  rw [Traffic.livePush.eq_def] at h
  split at h
  · next seq timestampMs msgId' fromUid toUid content serverTimestampMs heq =>
      cases heq
      cases h
      exact ⟨rfl, fromUid, toUid, content, serverTimestampMs, rfl⟩
  · cases h

/-- An ACK is written for a push that the session has read and its browser has
acknowledged. -/
theorem acknowledged_of_written (e : GatewayRun R) (hs : e.state.sessions n = some s)
    {x : EnvelopeObject} (hx : x ∈ s.written) {msgId : ℕ}
    (hack : (Traffic.toServer x).pushAck = some msgId) :
    ∃ push message, .fromServer push ∈ traffic R n e.history ∧
      (Traffic.fromServer push).livePush = some msgId ∧
      .fromBrowser message ∈ traffic R n e.history ∧
      (Traffic.fromBrowser message).messageAck R = some msgId := by
  obtain ⟨origin, hpushes⟩ := session_induct (R := R) (n := n) (P := fun past s =>
      ∃ origin, s.Pushes R (traffic R n past) origin)
    (by
      intro past uid hnil
      rw [hnil]
      refine ⟨id, matched_nil .., ?_⟩
      intro msgId seq hpos hseq
      cases hseq)
    (by
      rintro g event past s s' ⟨origin, h⟩ - hpasses
      exact h.passes hpasses) e hs
  rw [← (outputs_traffic e hs).2] at hx
  obtain ⟨y, hy, hsome⟩ := List.mem_filterMap.mp hx
  obtain rfl : y = .toServer x := by
    cases y with
    | toServer envelope =>
        cases hsome
        rfl
    | _ => cases hsome
  obtain ⟨i, hi, hget⟩ := List.getElem_of_mem hy
  have hat : At Traffic.pushAck (traffic R n e.history) i msgId := by
    rw [At, List.getElem?_eq_getElem hi, hget]
    exact hack
  obtain ⟨-, hpush, k, -, -, hmessage⟩ := hpushes.matched.related i msgId hat
  obtain ⟨x, hx, hpush⟩ := Option.bind_eq_some_iff.mp hpush
  obtain ⟨y, hy, hmessage⟩ := Option.bind_eq_some_iff.mp hmessage
  cases x with
  | fromServer push =>
      cases y with
      | fromBrowser message =>
          exact ⟨push, message, List.mem_of_getElem? hx, hpush,
            List.mem_of_getElem? hy, hmessage⟩
      | _ => cases hmessage
  | _ => cases hpush

end Steps

end ReliableDelivery
