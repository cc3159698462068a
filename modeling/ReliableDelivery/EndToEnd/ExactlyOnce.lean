import ReliableDelivery.EndToEnd.World

/-!
# One message for one call

A call of `sendMessage` gives rise to the messages that the server writes while
it handles the request the call registered, however often that request arrives.
The client id ties the message to the call in both directions: no other call of
the process makes the same id, and the ledger has one message for an id.  Whether
somebody else sends under the id, in the name of the user, is not up to the
process.
-/

namespace ReliableDelivery

open Decimal Redis MessageStore TransitionSystem Program

variable {P : Platform} {S : Sessions}

namespace WorldRun

open ProcessRun (Registered Begun)

/-- The call gave rise to the message: a handler of the request that the call
registered wrote it. -/
def GivesRise (w : WorldRun P S) (call : ClientJob) (id : UInt64) : Prop :=
  ∃ conn seq envelope job s fromUid toUid content clientMsgId createdAtMs,
    Registered w.client call conn seq envelope ∧ Handles job conn envelope ∧
    WrittenBy w.server id job s fromUid toUid content clientMsgId createdAtMs

/-- What the server has received from a client of the process, one of its jobs
wrote. -/
theorem wrote_of_received {w : WorldRun P S} {conn : Conn} {envelope : Envelope}
    (hreceived : Received w.server conn envelope) (hown : S conn ≠ none) :
    Wrote w conn envelope := by
  rcases w.conveyed.received conn envelope hreceived with hwrote | hother
  · exact hwrote
  · exact absurd hother hown

/-- A chat request that the server received from a client was registered by a
call of that client. -/
theorem registered_of_received {w : WorldRun P S} {conn : Conn}
    {envelope : Envelope} (hreceived : Received w.server conn envelope)
    (htype : envelope.type = .chatReq) (hown : S conn ≠ none) :
    ∃ call, Registered w.client call conn envelope.seq envelope := by
  obtain ⟨job, hwrote⟩ := wrote_of_received hreceived hown
  obtain ⟨call, hcall, -⟩ :=
    ProcessRun.registered_of_send w.client hwrote htype
  exact ⟨call, hcall⟩

/-- The user of a registered request is the user of its client. -/
theorem session_of_registered {w : WorldRun P S} {call : ClientJob}
    {conn : Conn} {seq : UInt64} {envelope : Envelope}
    (h : Registered w.client call conn seq envelope) :
    S conn = some call.uid := by
  obtain ⟨now, hmem⟩ := h
  obtain ⟨hconn, -⟩ := Registered.call ⟨now, hmem⟩
  rw [hconn]
  exact (ProcessRun.begun_of_mem_trace w.client hmem).session

/-- What a call gives rise to is what it asked for. -/
theorem GivesRise.stored {w : WorldRun P S} {call : ClientJob} {id : UInt64}
    (h : GivesRise w call id) :
    ∃ conn seq envelope request m, Registered w.client call conn seq envelope ∧
      envelope.chatReq? = some request ∧ w.server.ledger.find id = some m ∧
      m.fromUid = request.fromUid ∧ m.toUid = request.toUid ∧
      m.content = request.content ∧ m.clientMsgId = request.clientMsgId := by
  obtain ⟨conn, seq, envelope, job, s, fromUid, toUid, content, clientMsgId,
    createdAtMs, hcall, hhandles, hwritten⟩ := h
  obtain ⟨conn', envelope', hhandles', -, -, hrequest⟩ := hwritten.request
  rw [Handles, hhandles] at hhandles'
  cases hhandles'
  obtain ⟨m, hm, horigin⟩ := hwritten.find
  simp only [Message.origin, Prod.mk.injEq] at horigin
  obtain ⟨hfrom, hto, hcontent, hclient, -⟩ := horigin
  exact ⟨conn, seq, envelope, _, m, hcall, hrequest, hm, hfrom, hto, hcontent,
    hclient⟩

/-- The ledger has the message under the sender and the client id of the
request. -/
def StoredFor (w : WorldRun P S) (envelope : Envelope) (id : UInt64) : Prop :=
  ∃ request m, envelope.chatReq? = some request ∧
    w.server.ledger.find id = some m ∧
    m.clientKey = (request.fromUid, request.clientMsgId)

theorem StoredFor.mono {w w' : WorldRun P S} {envelope : Envelope}
    {id : UInt64} (h : StoredFor w envelope id)
    (hlater : Execution.Later w w') : StoredFor w' envelope id := by
  obtain ⟨request, m, hrequest, hm, hkey⟩ := h
  obtain ⟨m', hm', horigin, -⟩ :=
    (ServerRun.extends_later (server_later hlater)).2 id m hm
  refine ⟨request, m', hrequest, hm', ?_⟩
  rw [Message.clientKey_eq_of_origin_eq horigin, hkey]

/-- Nobody else sends a chat request in the name of a user of the process. -/
def Unimpersonated (w : WorldRun P S) : Prop :=
  ∀ conn envelope request client, Received w.server conn envelope →
    S conn = none → envelope.chatReq? = some request →
    S client ≠ some request.fromUid

/-- What the ledger has for the request of a call, the call gave rise to. -/
theorem StoredFor.givesRise {w : WorldRun P S} {call : ClientJob} {conn : Conn}
    {seq id : UInt64} {envelope : Envelope} (h : StoredFor w envelope id)
    (hcall : Registered w.client call conn seq envelope)
    (hothers : Unimpersonated w) : GivesRise w call id := by
  obtain ⟨request, m, hrequest, hm, hkey⟩ := h
  rw [Message.clientKey, Prod.mk.injEq] at hkey
  obtain ⟨job, s, hwritten⟩ := (accounted w.server id m hm).written
  obtain ⟨conn', envelope', hhandles, hreceived, htype, hrequest'⟩ :=
    hwritten.request
  have huid : S conn = some m.fromUid := by
    obtain ⟨-, -, toUid, content, msgNo, now, stamp, -, -, rfl⟩ := hcall.call
    cases hrequest
    rw [hkey.1]
    exact session_of_registered hcall
  have hown : S conn' ≠ none := fun hnone =>
    hothers conn' envelope' _ conn hreceived hnone hrequest' huid
  obtain ⟨call', hcall'⟩ := registered_of_received hreceived htype hown
  obtain ⟨rfl, rfl, rfl⟩ :=
    hcall.of_clientMsgId hcall' hrequest hrequest' hkey.2.symm
  exact ⟨conn, seq, envelope, job, s, _, _, _, _, _, hcall, hhandles, hwritten⟩

/-- A positive acknowledgement of the request was sent over the connection. -/
def Accepted (w : WorldRun P S) (conn : Conn) (seq : UInt64) : Prop :=
  ∃ envelope ack, Sent w conn envelope ∧
    envelope.payload = some (.ack ack) ∧ ack.ok = true ∧ ack.seq = seq

/-- For a request that was accepted the ledger has a message. -/
theorem Accepted.storedFor {w : WorldRun P S} {call : ClientJob} {conn : Conn}
    {seq : UInt64} {envelope : Envelope} (h : Accepted w conn seq)
    (hcall : Registered w.client call conn seq envelope) :
    ∃ id, StoredFor w envelope id := by
  obtain ⟨ackEnvelope, ack, ⟨job, s, t, hmem⟩, hpayload, hok, hseq⟩ := h
  obtain ⟨e₁, e₂, -, hnext, hlater⟩ := Execution.exists_next_of_mem hmem
  obtain ⟨hacks, -⟩ : Justified job e₁ (.sendEnvelope conn ackEnvelope) :=
    justified_of_next hnext
  obtain ⟨envelope', hhandles, hseq', -, hpositive⟩ := hacks ack hpayload
  obtain ⟨htype, request, now, answer, s', hrequest, hdid, hcreated, -⟩ :=
    hpositive hok
  have hreceived : Received w.server conn envelope' :=
    (hdid.received hhandles).mono (hnext.later.trans hlater)
  have hown : S conn ≠ none := by simp [session_of_registered hcall]
  have hanswered : envelope' = envelope := by
    obtain ⟨call', hcall'⟩ := registered_of_received hreceived htype hown
    rw [← hseq', hseq] at hcall'
    exact (hcall.of_seq hcall').2.2.symm
  obtain ⟨m, e₃, hlater', hm, hkey, -⟩ := created_of_did hdid hcreated
  obtain ⟨m', hm', horigin, -⟩ := (ServerRun.extends_later
    (hlater'.trans (hnext.later.trans hlater))).2 _ m hm
  refine ⟨_, request, m', hanswered ▸ hrequest, hm', ?_⟩
  rw [Message.clientKey_eq_of_origin_eq horigin, hkey]

/-- A call gives rise to one message at most. -/
theorem GivesRise.eq {w : WorldRun P S} {call : ClientJob} {id id' : UInt64}
    (h : GivesRise w call id) (h' : GivesRise w call id') : id = id' := by
  obtain ⟨conn, seq, envelope, request, m, hcall, hrequest, hm, hfrom, -, -,
    hclient⟩ := h.stored
  obtain ⟨conn', seq', envelope', request', m', hcall', hrequest', hm', hfrom',
    -, -, hclient'⟩ := h'.stored
  obtain ⟨-, -, rfl⟩ := hcall.eq hcall'
  rw [hrequest, Option.some.injEq] at hrequest'
  apply w.server.ledger.distinct id id' m m' hm hm'
  rw [Message.clientKey, Message.clientKey, hfrom, hfrom', hclient, hclient',
    hrequest']

/-- A message comes from one call at most. -/
theorem GivesRise.call_eq {w : WorldRun P S} {call call' : ClientJob}
    {id : UInt64} (h : GivesRise w call id) (h' : GivesRise w call' id) :
    call = call' := by
  obtain ⟨conn, seq, envelope, request, m, hcall, hrequest, hm, -, -, -,
    hclient⟩ := h.stored
  obtain ⟨conn', seq', envelope', request', m', hcall', hrequest', hm', -, -,
    -, hclient'⟩ := h'.stored
  rw [hm, Option.some.injEq] at hm'
  subst hm'
  rw [hclient] at hclient'
  exact (hcall.of_clientMsgId hcall' hrequest hrequest' hclient').1

end WorldRun

/-- Two envelopes carry the same sequence number or the same client id. -/
def Envelope.SharesNumber (envelope envelope' : Envelope) : Prop :=
  envelope.seq = envelope'.seq ∨ ∃ request request',
    envelope.chatReq? = some request ∧ envelope'.chatReq? = some request' ∧
    request.clientMsgId = request'.clientMsgId

open WorldRun ProcessRun in
/-- In every run of the client process with the server, a call of `sendMessage`
gives rise to one message at most, and different calls to different messages.
If the request of a call has been accepted and nobody else sends in the name of the
users, there is exactly one message for it, and it carries the call's sender,
receiver and content.  A request is written to the socket at most
`1 + kMaxRetryCount` times, and nothing else is ever written with its sequence
number or its client id. -/
theorem sendMessage_exactly_once (w : WorldRun P S) :
    (∀ call id id', GivesRise w call id → GivesRise w call id' → id = id') ∧
    (∀ call call' id, GivesRise w call id → GivesRise w call' id →
      call = call') ∧
    (Unimpersonated w → ∀ call toUid content conn seq envelope,
      call.task = .send toUid content →
      Registered w.client call conn seq envelope → Accepted w conn seq →
      ∃ id, GivesRise w call id ∧ (∀ id', GivesRise w call id' → id' = id) ∧
        ∃ clientMsgId createdAtMs, OriginStored w.server.state.store.db id
          call.uid toUid content clientMsgId createdAtMs) ∧
    (∀ call conn seq envelope, Registered w.client call conn seq envelope →
      w.client.attempted seq ≤ 1 + kMaxRetryCount ∧
      ∀ job conn' envelope' sent,
        ⟨.sendEnvelope conn' envelope', sent⟩ ∈ w.client.trace job →
        envelope'.type = .chatReq → envelope.SharesNumber envelope' →
        conn' = conn ∧ envelope' = envelope) := by
  refine ⟨fun _ _ _ h h' => h.eq h', fun _ _ _ h h' => h.call_eq h', ?_, ?_⟩
  · intro hothers call toUid content conn seq envelope htask hcall haccepted
    obtain ⟨id, hstored⟩ := haccepted.storedFor hcall
    have hid : GivesRise w call id := hstored.givesRise hcall hothers
    refine ⟨id, hid, fun id' hid' => hid'.eq hid, ?_⟩
    obtain ⟨conn', seq', envelope', request, m, hcall', hrequest, hm, hfrom,
      hto, hcontent, -⟩ := hid.stored
    obtain ⟨-, -, toUid', content', msgNo, now, stamp, htask', -, rfl⟩ :=
      hcall'.call
    cases hrequest
    rw [htask, ClientTask.send.injEq] at htask'
    refine ⟨m.clientMsgId, m.createdAtMs, ?_⟩
    have hstored := originStored w.server.represents hm
    rw [hfrom, hto, hcontent, ← htask'.1, ← htask'.2] at hstored
    exact hstored
  · intro call conn seq envelope hcall
    refine ⟨attempted_le w.client seq, ?_⟩
    intro job conn' envelope' sent hmem htype hshares
    obtain ⟨call', hcall', -⟩ := registered_of_send w.client hmem htype
    have hseq : envelope.seq = seq := by
      obtain ⟨-, -, _, _, _, _, _, -, -, rfl⟩ := hcall.call
      rfl
    rcases hshares with heq | ⟨request, request', hrequest, hrequest', hid⟩
    · rw [← heq, hseq] at hcall'
      obtain ⟨-, hconn, henvelope⟩ := hcall.of_seq hcall'
      exact ⟨hconn.symm, henvelope.symm⟩
    · obtain ⟨-, hconn, henvelope⟩ :=
        hcall.of_clientMsgId hcall' hrequest hrequest' hid
      exact ⟨hconn.symm, henvelope.symm⟩

end ReliableDelivery
