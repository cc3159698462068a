import ReliableDelivery.EndToEnd.SiteSchedule
import ReliableDelivery.Gateway.Provenance
import ReliableDelivery.Server.Identity
import ReliableDelivery.Server.Replies

/-!
# Whose messages they are

From a stored message back to the browser that has sent it and to the login of its
user, and from a message that a browser is shown back to the store.  Others may be
connected to the server and send what they like; it is the sessions of the gateway
that stand between the server and the browsers.
-/

namespace ReliableDelivery

open Decimal Ecmascript MessageCodec MessageStore Redis TransitionSystem

variable {P : Platform} {R : Runtime} {W : SiteSettings} {others : Others}

/-- In the run so far, the server has sent the envelope on the connection. -/
def Sent (e : ServerRun P) (conn : Conn) (envelope : Envelope) : Prop :=
  ∃ (e₁ e₂ : ServerRun P) (t : Thread) (job : Job),
    Execution.Next e₁ (.execute t job (.sendEnvelope conn envelope) ()) e₂ ∧
      Execution.Later e₂ e

theorem Sent.mono {e e' : ServerRun P} {conn : Conn} {envelope : Envelope}
    (h : Sent e conn envelope) (hlater : Execution.Later e e') :
    Sent e' conn envelope := by
  obtain ⟨e₁, e₂, t, job, hnext, hbefore⟩ := h
  exact ⟨e₁, e₂, t, job, hnext, hbefore.trans hlater⟩

/-! ## From the server to the browser -/

namespace BridgeRun

variable {w w' : BridgeRun P R others} {n : ℕ} {s : Session}

/-- What is on its way to the gateway was sent by the server. -/
theorem sent_of_toGateway (w : BridgeRun P R others) {envelope : Envelope}
    (h : envelope ∈ w.state.toGateway n) : Sent (server w) n envelope := by
  revert h
  apply Execution.induct (P := fun w : BridgeRun P R others =>
    envelope ∈ (Execution.state w).toGateway n → Sent (server w) n envelope)
  · intro w _ hinit h
    rw [show Execution.state w = {} from hinit] at h
    cases h
  · intro w w' l ih hnext h
    obtain ⟨hstep, -⟩ := id hnext
    generalize hw' : w'.state = v at hstep h
    cases hstep with
    | serve l s hstep hreceive hconnect =>
        have hlater := (server_next hnext).later
        rcases Channels.mem_post.mp h with hold | hnew
        · exact (ih hold).mono hlater
        · obtain ⟨t, job, rfl⟩ := ServerLabel.transmits_eq_some hnew
          exact ⟨server w, server w', t, job, server_next hnext, .refl _⟩
    | arrive m session object envelope' s hs hobject hreads hstep =>
        exact (ih h).mono (server_next hnext).later
    | move event g hstep hdata hown =>
        rw [server_stutter hnext]
        exact ih h
    | deliver m now chunk session envelopes rest g hs hchannel hyields hstep =>
        rw [server_stutter hnext]
        apply ih
        by_cases hne : n = m
        · subst hne
          simp only [Function.update_self] at h
          rw [hchannel]
          exact List.mem_append_right envelopes h
        · simpa only [Function.update_of_ne hne] using h

/-- What a session has read, the server has sent on its connection. -/
theorem sent_of_read (w : BridgeRun P R others) {x : EnvelopeObject}
    (h : .fromServer x ∈ traffic R n (gateway w).history) :
    ∃ envelope, Sent (server w) n envelope ∧ ReadAs x envelope := by
  revert h
  apply Execution.induct (P := fun w : BridgeRun P R others =>
    .fromServer x ∈ traffic R n (gateway w).history →
      ∃ envelope, Sent (server w) n envelope ∧ ReadAs x envelope)
  · intro w hnil _ h
    simp only [gateway, Projection.onRun, hnil] at h
    cases h
  · intro w w' l ih hnext h
    cases l with
    | server l =>
        rw [gateway_stutter hnext] at h
        obtain ⟨envelope, hsent, hread⟩ := ih h
        exact ⟨envelope, hsent.mono (server_next hnext).later, hread⟩
    | gateway event =>
        rw [server_stutter hnext]
        rw [traffic_next (gateway_next hnext), List.mem_append] at h
        rcases h with hold | hnew
        · exact ih hold
        · obtain ⟨s, now, chunk, decoded, hs, rfl, hdecode, hx⟩ :=
            decoded_of_passing hnew
          obtain ⟨hstep, -⟩ := id hnext
          generalize w'.state = v at hstep
          cases hstep with
          | move event g hstep hdata hown => exact absurd rfl (hdata _ _ _)
          | deliver _ _ _ session envelopes rest g hs₂ hchannel hyields hstep =>
              cases hs.symm.trans hs₂
              simp only [Yields, hdecode] at hyields
              obtain ⟨i, hi, rfl⟩ := List.getElem_of_mem hx
              have hi' : i < envelopes.length := hyields.length_eq ▸ hi
              refine ⟨envelopes[i], sent_of_toGateway w ?_, hyields.get hi hi'⟩
              rw [hchannel]
              exact List.mem_append_left rest (List.getElem_mem hi')

/-- What is read as a CHAT_PUSH was sent as one. -/
theorem push_of_sent {e : ServerRun P} {envelope : Envelope} {x : EnvelopeObject}
    (hsent : Sent e n envelope) (hread : ReadAs x envelope) (htype : x.type = 4) :
    ∃ push, envelope.payload = some (.chatPush push) := by
  obtain ⟨e₁, e₂, t, job, hnext, -⟩ := hsent
  have hnumber : envelope.type.number = 4 := hread.1.symm.trans htype
  refine isPush_of_sent hnext ?_ ?_
  · intro hlogin
    rw [hlogin] at hnumber
    cases hnumber
  · intro hack
    rw [hack] at hnumber
    cases hnumber

/-- A connection on which a user was found belongs to a session of that user. -/
theorem session_of_did (w : BridgeRun P R others) (hs : w.state.gateway.sessions n = some s)
    {job : Job} {command : Command} {answer : command.Answer} {v : ServerState}
    {uid : UInt64} (hdid : Did (server w) job command answer v)
    (hsole : SoleConnection v uid n) (hlt : s.uid < 2 ^ 64) :
    uid = UInt64.ofNat s.uid := by
  obtain ⟨e₁, e₂, v', rfl, h₁, h₂, -, -⟩ := hdid.effect
  obtain ⟨login, hreceived, htype, rfl⟩ := login_of_bound e₁ hsole.2.1
  obtain ⟨s', hs', hlogin⟩ :=
    session_of_login w (own_of_session w hs) (hreceived.mono (h₁.trans h₂)) htype
  cases hs.symm.trans hs'
  exact hlogin hlt

/-- A push goes to a session of the receiver, or of the sender with the history. -/
theorem addressed (w : BridgeRun P R others) (hs : w.state.gateway.sessions n = some s)
    {envelope : Envelope} {push : ChatPush} (hsent : Sent (server w) n envelope)
    (hpush : envelope.payload = some (.chatPush push)) :
    (∃ m, (server w).ledger.find push.msgId = some m ∧ push.fromUid = m.fromUid ∧
        push.toUid = m.toUid ∧ push.content = m.content) ∧
      (s.uid < 2 ^ 64 → UInt64.ofNat s.uid = push.toUid ∨
        push.history = true ∧ UInt64.ofNat s.uid = push.fromUid) := by
  obtain ⟨e₁, e₂, t, job, hnext, hlater⟩ := hsent
  obtain ⟨m, uid, v, hm, hfrom, hto, hcontent, hlookup, huid⟩ :=
    message_of_push hnext hlater hpush
  refine ⟨⟨m, hm, hfrom, hto, hcontent⟩, fun hlt => ?_⟩
  have hdid := hlookup.did.mono (hnext.later.trans hlater)
  rw [← session_of_did w hs hdid hlookup.soleConnection hlt, hto, hfrom]
  exact huid

end BridgeRun

/-! ## From the browser to the server -/

namespace SiteRun

variable {w w' : SiteRun P W others} {n : ℕ} {s : Session}

def server (w : SiteRun P W others) : ServerRun P :=
  BridgeRun.server (bridge w)

def gateway (w : SiteRun P W others) : GatewayRun W.runtime :=
  BridgeRun.gateway (bridge w)

/-- What the server has received on a connection of the gateway was written by its
session, with the same fields. -/
theorem written_of_received (w : SiteRun P W others) (hown : ¬others n)
    {envelope : Envelope} (h : Received (server w) n envelope) :
    ∃ s, w.state.bridge.gateway.sessions n = some s ∧
      ∃ object ∈ s.written, Reads object envelope ∧ ReadsFields object envelope := by
  revert h
  apply Execution.induct (P := fun w : SiteRun P W others =>
    Received (server w) n envelope →
      ∃ s, (Execution.state w).bridge.gateway.sessions n = some s ∧
        ∃ object ∈ s.written, Reads object envelope ∧ ReadsFields object envelope)
  · rintro w hnil hinit ⟨s, hmem⟩
    simp only [server, bridge, BridgeRun.server, Projection.onRun, hnil] at hmem
    cases hmem
  · intro w w' l ih hnext h
    cases hl : l.bridge? with
    | none =>
        have hsame : bridge w' = bridge w := (siteBridge P W others).onRun_stutter hnext hl
        have hbridge : w'.state.bridge = w.state.bridge :=
          congrArg Execution.state hsame
        rw [server, hsame] at h
        rw [hbridge]
        exact ih h
    | some k =>
        have hpart := (siteBridge P W others).onRun_next hnext hl
        have hold : Received (server w) n envelope →
            ∃ s, w'.state.bridge.gateway.sessions n = some s ∧
              ∃ object ∈ s.written,
                Reads object envelope ∧ ReadsFields object envelope := by
          intro hbefore
          obtain ⟨s, hs, object, hobject, hreads⟩ := ih hbefore
          obtain ⟨s', hs', honward⟩ := BridgeRun.session_next hpart hs
          exact ⟨s', hs', object, honward.outputs.2.mem hobject, hreads⟩
        cases k with
        | gateway event =>
            rw [server, bridge, BridgeRun.server_stutter hpart] at h
            exact hold h
        | server k =>
            obtain ⟨v, hmem⟩ := h
            have hserver := BridgeRun.server_next hpart
            rw [server, bridge, hserver.2] at hmem
            rcases List.mem_cons.mp hmem with heq | hmem
            · obtain ⟨-, rfl⟩ := Prod.mk.inj heq
              obtain ⟨hstep, -⟩ := id hnext
              generalize w'.state = v' at hstep
              cases hstep with
              | bridge l b halive hattach hstep hfields =>
                  cases hl
                  cases hstep with
                  | serve _ s hstep hreceive hconnect =>
                      exact absurd (hreceive n envelope rfl) hown
                  | arrive _ s object _ s' hs hobject hreads hstep =>
                      exact ⟨s, hs, object, List.mem_of_getElem? hobject, hreads,
                        hfields n envelope s object rfl hs hobject⟩
              | attach url now uid auth b halive hupgrade hstep => cases hl
              | reject url now outcome auth halive hupgrade houtcome =>
                  cases outcome with
                  | _ => cases hl
              | _ => cases hl
            · exact hold ⟨v, hmem⟩

/-- The browser of the session has sent this message. -/
def Said (w : SiteRun P W others) (n : ℕ) (message : BrowserMessage) : Prop :=
  ∃ s now data, (s, .bridge (.gateway (.wsMessage n now data))) ∈ w.history ∧
    Session.parseMessage W.runtime data = some message

theorem said_of_wsMessage (w : SiteRun P W others) {g : GatewayState} {now : ℕ}
    {data : RawData} {message : BrowserMessage}
    (hmem : (g, .wsMessage n now data) ∈ (gateway w).history)
    (hparse : Session.parseMessage W.runtime data = some message) :
    Said w n message := by
  obtain ⟨b, k, hb, -, hk⟩ := (gatewaySide P W.runtime others).exists_of_mem_onRun hmem
  obtain ⟨v, l, hv, -, hl⟩ := (siteBridge P W others).exists_of_mem_onRun hb
  refine ⟨v, now, data, ?_, hparse⟩
  cases k with
  | server k => cases hk
  | gateway event =>
      cases hk
      cases l with
      | bridge l =>
          cases hl
          exact hv
      | request req now token response => cases hl
      | upgrade url now outcome attached =>
          cases outcome with
          | verified uid =>
              cases attached with
              | true => cases hl
              | false => cases hl
          | _ => cases hl

/-- A chat request is written for a `send_message`, in the name of the user of the
session. -/
theorem said_of_written (w : SiteRun P W others)
    (hs : w.state.bridge.gateway.sessions n = some s) {object : EnvelopeObject}
    (hobject : object ∈ s.written) {fromUid toUid : ℕ} {content clientMsgId : Bytes}
    (hpayload : object.payload = some (.chatReq fromUid toUid content clientMsgId)) :
    fromUid = s.uid ∧ ∃ message text name, Said w n message ∧
      Composed W.runtime message toUid text name ∧
      content = W.runtime.utf8Write text ∧
      clientMsgId = W.runtime.utf8Write name := by
  obtain ⟨g, event, hmem, hsession, hwrites⟩ :=
    writes_of_written (gateway w) hs hobject
  cases hwrites with
  | login m now seq => cases hpayload
  | ack m now msgId seq data => cases hpayload
  | @chat m now seq data message _ text name hparse hcomposed =>
      cases hpayload
      cases hsession
      exact ⟨rfl, message, text, name, said_of_wsMessage w hmem hparse, hcomposed, rfl,
        rfl⟩

/-- The message was written for a request that had come over the connection. -/
def WrittenFor (w : SiteRun P W others) (n : ℕ) (envelope : Envelope)
    (id fromUid toUid : UInt64) (content clientMsgId : Bytes) : Prop :=
  Received (server w) n envelope ∧ ∃ job v createdAtMs, Handles job n envelope ∧
    WrittenBy (server w) id job v fromUid toUid content clientMsgId createdAtMs

/-- The message was written for a request that somebody else had sent. -/
def SentByOthers (w : SiteRun P W others) (id fromUid toUid : UInt64)
    (content clientMsgId : Bytes) : Prop :=
  ∃ n envelope, others n ∧ WrittenFor w n envelope id fromUid toUid content clientMsgId

/-- The message was written for a request of a session whose user had logged in and
whose browser had asked for the message.  Uids that have more than 64 bits come over in
some other form. -/
def Authored (w : SiteRun P W others) (id fromUid toUid : UInt64)
    (content clientMsgId : Bytes) : Prop :=
  ∃ n s message receiver text name object envelope,
    w.state.bridge.gateway.sessions n = some s ∧
    Authenticated w s.uid ∧ Said w n message ∧
    Composed W.runtime message receiver text name ∧
    content = W.runtime.utf8Write text ∧
    clientMsgId = W.runtime.utf8Write name ∧
    object ∈ s.written ∧
    object.payload = some (.chatReq s.uid receiver content clientMsgId) ∧
    ReadsFields object envelope ∧
    WrittenFor w n envelope id fromUid toUid content clientMsgId ∧
    (s.uid < 2 ^ 64 → fromUid = UInt64.ofNat s.uid) ∧
    (receiver < 2 ^ 64 → toUid = UInt64.ofNat receiver)

theorem authored_of_find (w : SiteRun P W others) {id : UInt64} {m : Message}
    (hm : (server w).ledger.find id = some m) :
    Authored w id m.fromUid m.toUid m.content m.clientMsgId ∨
      SentByOthers w id m.fromUid m.toUid m.content m.clientMsgId := by
  obtain ⟨job, v, hwritten⟩ := (accounted (server w) id m hm).written
  obtain ⟨n, envelope, hhandles, hreceived, -, hrequest⟩ := hwritten.request
  have hfor : WrittenFor w n envelope id m.fromUid m.toUid m.content m.clientMsgId :=
    ⟨hreceived, job, v, m.createdAtMs, hhandles, hwritten⟩
  by_cases hown : others n
  · exact .inr ⟨n, envelope, hown, hfor⟩
  · left
    obtain ⟨s, hs, object, hobject, -, hfields⟩ := written_of_received w hown hreceived
    obtain ⟨fromUid, toUid, hpayload, hexactFrom, hexactTo⟩ :=
      hfields.chat _ hrequest
    obtain ⟨rfl, message, text, name, hsaid, hcomposed, hcontent, hname⟩ :=
      said_of_written w hs hobject hpayload
    exact ⟨n, s, message, toUid, text, name, object, envelope, hs, authenticated w hs,
      hsaid, hcomposed, hcontent, hname, hobject, hpayload, hfields, hfor, hexactFrom,
      hexactTo⟩

/-- Authenticity of the store.  Whatever anybody sends to the gateway, every message
that is stored was written for a request which had come over a connection that is not of
the gateway, or which a session had written because its browser had asked for the
message, with this text and for this receiver; the user of the session had logged in. -/
theorem stored_authored (w : SiteRun P W others) {id : UInt64}
    (h : HasMessage w.state.bridge.server.store.db id) :
    ∃ fromUid toUid content clientMsgId createdAtMs,
      OriginStored w.state.bridge.server.store.db id fromUid toUid content clientMsgId
        createdAtMs ∧
      (Authored w id fromUid toUid content clientMsgId ∨
        SentByOthers w id fromUid toUid content clientMsgId) := by
  obtain ⟨m, hm⟩ := (hasMessage_iff (server w).represents id).mp h
  exact ⟨m.fromUid, m.toUid, m.content, m.clientMsgId, m.createdAtMs,
    originStored (server w).represents hm, authored_of_find w hm⟩

/-- A visit to the site ends with the acknowledgement of the message. -/
theorem exists_acked :
    ∃ w : SiteRun wirePlatform visitSettings nobodyElse,
      fieldOf w.state.bridge.server.store.db (makeMessageKey 1) (literal "status") =
        some (literal "Acked") := by
  obtain ⟨w, hstate⟩ := exists_visit
  refine ⟨w, ?_⟩
  rw [hstate]
  decide +kernel

theorem stored_authored_visit :
    ∃ (w : SiteRun wirePlatform visitSettings nobodyElse) (fromUid toUid : UInt64)
      (content clientMsgId : Bytes) (createdAtMs : UInt64),
      OriginStored w.state.bridge.server.store.db 1 fromUid toUid content clientMsgId
        createdAtMs ∧ Authored w 1 fromUid toUid content clientMsgId := by
  obtain ⟨w, hacked⟩ := exists_acked
  have hrepresents := (server w).represents
  obtain ⟨m, hm, -⟩ := (hrepresents.status_iff 1 .acked).mp hacked
  obtain ⟨fromUid, toUid, content, clientMsgId, createdAtMs, hstored,
    hauthored | ⟨n, envelope, hother, -⟩⟩ :=
      stored_authored w ((hasMessage_iff hrepresents 1).mpr ⟨m, hm⟩)
  · exact ⟨w, fromUid, toUid, content, clientMsgId, createdAtMs, hstored, hauthored⟩
  · exact hother.elim

/-! ## From browser to browser -/

/-- The frame passes on the push, whose numbers are the same if they are doubles
without rounding. -/
def PassesOn (R : Runtime) (frame : BrowserFrame) (envelope : Envelope)
    (push : ChatPush) : Prop :=
  envelope.payload = some (.chatPush push) ∧ (envelope.Exact → ∃ now,
    frame = .message push.msgId.toNat push.fromUid.toNat push.toUid.toNat
      (R.utf8Read push.content)
      (if push.serverTimestampMs.toNat = 0 then now
        else push.serverTimestampMs.toNat) push.history)

theorem passesOn_pushFrame {R : Runtime} {envelope : Envelope} {push : ChatPush}
    {x : EnvelopeObject} (hpush : envelope.payload = some (.chatPush push))
    (hread : ReadAs x envelope) (now : ℕ) :
    PassesOn R (Session.pushFrame R now x) envelope push := by
  refine ⟨hpush, fun hexact => ⟨now, ?_⟩⟩
  rw [hread.2 hexact, Session.pushFrame, Envelope.toObject, hpush]
  rfl

/-- What a browser is shown.  Every message that a session shows is one that the server
has sent on the connection of the session; it is stored, with this sender, receiver and
text, it comes from where every stored message comes from, and the session is one of its
receiver or, with the history, of its sender, who has logged in. -/
theorem shown_authored (w : SiteRun P W others)
    (hs : w.state.bridge.gateway.sessions n = some s) {frame : BrowserFrame}
    (hframe : frame ∈ s.sent) (hmessage : frame.isMessage = true) :
    ∃ envelope push clientMsgId createdAtMs, PassesOn W.runtime frame envelope push ∧
      Sent (server w) n envelope ∧
      OriginStored w.state.bridge.server.store.db push.msgId push.fromUid push.toUid
        push.content clientMsgId createdAtMs ∧
      (Authored w push.msgId push.fromUid push.toUid push.content clientMsgId ∨
        SentByOthers w push.msgId push.fromUid push.toUid push.content clientMsgId) ∧
      Authenticated w s.uid ∧
      (s.uid < 2 ^ 64 → UInt64.ofNat s.uid = push.toUid ∨
        push.history = true ∧ UInt64.ofNat s.uid = push.fromUid) := by
  obtain ⟨x, now, hx, htype, rfl⟩ := read_of_sent (gateway w) hs hframe hmessage
  obtain ⟨envelope, hsent, hread⟩ := BridgeRun.sent_of_read (bridge w) hx
  obtain ⟨push, hpush⟩ := BridgeRun.push_of_sent hsent hread htype
  obtain ⟨⟨m, hm, hfrom, hto, hcontent⟩, haddressed⟩ :=
    BridgeRun.addressed (bridge w) hs hsent hpush
  refine ⟨envelope, push, m.clientMsgId, m.createdAtMs,
    passesOn_pushFrame hpush hread now, hsent, ?_, ?_, authenticated w hs, haddressed⟩
  · rw [hfrom, hto, hcontent]
    exact originStored (server w).represents hm
  · rw [hfrom, hto, hcontent]
    exact authored_of_find w hm

theorem shown_authored_visit :
    ∃ (w : SiteRun wirePlatform visitSettings nobodyElse) (s : Session)
      (push : ChatPush) (clientMsgId : Bytes),
      w.state.bridge.gateway.sessions 0 = some s ∧
      Authored w push.msgId push.fromUid push.toUid push.content clientMsgId ∧
      (s.uid < 2 ^ 64 → UInt64.ofNat s.uid = push.toUid ∨
        push.history = true ∧ UInt64.ofNat s.uid = push.fromUid) := by
  obtain ⟨w, hstate⟩ := exists_visit
  have hshows : (w.state.bridge.gateway.sessions 0).any
      (fun s => s.sent.any BrowserFrame.isMessage) = true := by
    rw [hstate]
    decide +kernel
  obtain ⟨s, hs, hany⟩ := (Option.any_eq_true _ _).mp hshows
  obtain ⟨frame, hframe, hmessage⟩ := List.any_eq_true.mp hany
  obtain ⟨envelope, push, clientMsgId, createdAtMs, -, -, -,
    hauthored | ⟨n, envelope', hother, -⟩, -, huid⟩ :=
      shown_authored w hs hframe hmessage
  · exact ⟨w, s, push, clientMsgId, hs, hauthored, huid⟩
  · exact hother.elim

/-- The session is one of the user, who had logged in; it has read the message, not as
history, which the server had sent, and its browser has sent a `message_ack` for it.
Numbers that have more than 64 bits come over in some other form, and numbers that are
no doubles are rounded. -/
def DeliveredTo (w : SiteRun P W others) (n : ℕ) (id toUid : UInt64) : Prop :=
  ∃ s message msgId x envelope push,
    w.state.bridge.gateway.sessions n = some s ∧ Authenticated w s.uid ∧
    (s.uid < 2 ^ 64 → toUid = UInt64.ofNat s.uid) ∧
    Said w n message ∧
    (Traffic.fromBrowser message).messageAck W.runtime = some msgId ∧
    (msgId < 2 ^ 64 → id = UInt64.ofNat msgId) ∧
    .fromServer x ∈ traffic W.runtime n (gateway w).history ∧
    (Traffic.fromServer x).livePush = some msgId ∧
    Sent (server w) n envelope ∧ ReadAs x envelope ∧
    envelope.payload = some (.chatPush push) ∧
    (envelope.Exact → push.history = false ∧ push.msgId = id ∧
      ∃ clientMsgId createdAtMs, OriginStored w.state.bridge.server.store.db id
        push.fromUid push.toUid push.content clientMsgId createdAtMs)

/-- An ACK that a session has written for a message stands for its delivery. -/
theorem deliveredTo_of_ack (w : SiteRun P W others)
    (hs : w.state.bridge.gateway.sessions n = some s) {object : EnvelopeObject}
    (hobject : object ∈ s.written) {envelope : Envelope} (hreads : Reads object envelope)
    (hfields : ReadsFields object envelope) (htype : envelope.type = .ack) {ack : Ack}
    (hack : envelope.ack? = some ack) {toUid : UInt64}
    (huid : s.uid < 2 ^ 64 → toUid = UInt64.ofNat s.uid) :
    DeliveredTo w n ack.msgId toUid := by
  obtain ⟨msgId, seq, hpayload, hexact⟩ := hfields.ack ack hack
  have hpushAck : (Traffic.toServer object).pushAck = some msgId := by
    have hnumber : object.type = 5 := by
      rw [← hreads.1, htype]
      rfl
    obtain ⟨_, _, _, _⟩ := object
    cases hnumber
    cases hpayload
    rfl
  obtain ⟨x, message, hx, hlive, hmem, hmessage⟩ :=
    acknowledged_of_written (gateway w) hs hobject hpushAck
  obtain ⟨g, now, data, hevent, hparse⟩ := message_of_mem_traffic hmem
  obtain ⟨sent, hsent, hread⟩ := BridgeRun.sent_of_read (bridge w) hx
  obtain ⟨hnumber, fromUid, toUid', content, serverTimestampMs, hobjectPush⟩ :=
    livePush_eq_some hlive
  obtain ⟨push, hpush⟩ := BridgeRun.push_of_sent hsent hread hnumber
  refine ⟨s, message, msgId, x, sent, push, hs, authenticated w hs, huid,
    said_of_wsMessage w hevent hparse, hmessage, hexact, hx, hlive, hsent, hread, hpush,
    ?_⟩
  intro hdoubles
  have hobjectEq : sent.toObject.payload = some (.chatPush msgId fromUid toUid' content
      serverTimestampMs false) := by
    rw [← hread.2 hdoubles, hobjectPush]
  simp only [Envelope.toObject, hpush, Option.map_some, Payload.toObject,
    Option.some.injEq, PayloadObject.chatPush.injEq] at hobjectEq
  obtain ⟨rfl, -, -, -, -, hhistory⟩ := hobjectEq
  have hsame : push.msgId = ack.msgId := by
    rw [hexact push.msgId.toNat_lt, UInt64.ofNat_toNat]
  obtain ⟨⟨m, hm, hfrom, hto, hcontent⟩, -⟩ :=
    BridgeRun.addressed (bridge w) hs hsent hpush
  refine ⟨hhistory, hsame, m.clientMsgId, m.createdAtMs, ?_⟩
  rw [hfrom, hto, hcontent, ← hsame]
  exact originStored (server w).represents hm

/-- What is acknowledged was delivered.  A message that is marked as acked was named in
an ACK that the server received on some connection, and when that ACK was handled the
receiver of the message was the only user logged in on it.  If the connection is not
one of the others, then the message was delivered to its session. -/
theorem acked_delivered (w : SiteRun P W others) {id : UInt64}
    (h : fieldOf w.state.bridge.server.store.db (makeMessageKey id)
      (literal "status") = some (literal "Acked")) :
    ∃ n envelope ack toUid job v,
      Received (server w) n envelope ∧ envelope.type = .ack ∧
      envelope.ack? = some ack ∧ ack.msgId = id ∧
      fieldOf w.state.bridge.server.store.db (makeMessageKey id) (literal "to_uid") =
        some (toText toUid) ∧
      Handles job n envelope ∧ Did (server w) job (.getUidByConn n) toUid v ∧
      SoleConnection v toUid n ∧ (others n ∨ DeliveredTo w n id toUid) := by
  have hrepresents := (server w).represents
  obtain ⟨m, hm, hstatus⟩ := (hrepresents.status_iff id .acked).mp h
  obtain ⟨job, n, envelope, ack, v, hreceived, hhandles, htype, hack, rfl, huid, hdid,
    -⟩ := (accounted (server w) id m hm).acked hstatus
  have hsole := hdid.soleConnection huid
  refine ⟨n, envelope, ack, m.toUid, job, v, hreceived, htype, hack, rfl,
    (hrepresents.toUid_iff _ _).mpr ⟨m, hm, rfl⟩, hhandles, hdid, hsole, ?_⟩
  by_cases hown : others n
  · exact .inl hown
  · right
    obtain ⟨s, hs, object, hobject, hreads, hfields⟩ :=
      written_of_received w hown hreceived
    exact deliveredTo_of_ack w hs hobject hreads hfields htype hack
      (BridgeRun.session_of_did (bridge w) hs hdid hsole)

theorem acked_delivered_visit :
    ∃ (w : SiteRun wirePlatform visitSettings nobodyElse) (n : ℕ) (toUid : UInt64),
      DeliveredTo w n 1 toUid := by
  obtain ⟨w, hacked⟩ := exists_acked
  obtain ⟨n, -, -, toUid, job, v, -, -, -, -, -, -, -, -, hother | hdelivered⟩ :=
    acked_delivered w hacked
  · exact hother.elim
  · exact ⟨w, n, toUid, hdelivered⟩

end SiteRun

end ReliableDelivery
