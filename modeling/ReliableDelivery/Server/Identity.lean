import ReliableDelivery.Server.Retention

/-!
# Who sends, who acknowledges, who receives

The identities behind the messages of a run: a message in the ledger was sent by
the user whose name it carries, an acknowledgement came from the receiver, and a
push goes to the connection of the user it was looked up for.  All checks are
made before the act they guard, and other logins may come in between, so each
statement speaks about the state in which the check was made.
-/

namespace ReliableDelivery

open Decimal Redis MessageStore TransitionSystem

variable {P : Platform}

/-- `conn` is the one connection on which `uid` is logged in. -/
def SoleConnection (s : ServerState) (uid : UInt64) (conn : Conn) : Prop :=
  uid ≠ 0 ∧ s.users.getConnByUid uid = some conn ∧
    ∀ c, s.users.getUidByConn (some c) = uid ↔ c = conn

theorem SoleConnection.of_getConnByUid {s : ServerState} {uid : UInt64}
    {conn : Conn} (hs : s.users.Consistent)
    (h : s.users.getConnByUid uid = some conn) : SoleConnection s uid conn := by
  have huid : uid ≠ 0 := ((hs.online uid conn).mp h).1
  refine ⟨huid, h, ?_⟩
  intro c
  rw [hs.getUidByConn_iff huid]
  have hconn : s.users.uidToConn uid = some conn := h
  rw [hconn, Option.some.injEq]
  exact eq_comm

theorem SoleConnection.of_getUidByConn {s : ServerState} {uid : UInt64}
    {conn : Conn} (hs : s.users.Consistent) (huid : uid ≠ 0)
    (h : s.users.getUidByConn (some conn) = uid) :
    SoleConnection s uid conn :=
  .of_getConnByUid hs ((hs.getUidByConn_iff huid).mp h)

/-- An identity check that found a user. -/
theorem Did.soleConnection {e : ServerRun P} {job : Job} {conn : Conn}
    {uid : UInt64} {s : ServerState}
    (h : Did e job (.getUidByConn conn) uid s) (huid : uid ≠ 0) :
    SoleConnection s uid conn :=
  .of_getUidByConn h.consistent huid h.getUidByConn

/-- A lookup that found a connection. -/
theorem LastLookup.soleConnection {e : ServerRun P} {job : Job} {conn : Conn}
    {uid : UInt64} {s : ServerState} (h : LastLookup e job uid conn s) :
    SoleConnection s uid conn :=
  .of_getConnByUid h.did.consistent h.did.getConnByUid

/-! ## Senders -/

/-- The message was written while handling a chat request, received on the
connection on which the sender was logged in when the handler checked. -/
def SentBy (e : ServerRun P) (id fromUid : UInt64) : Prop :=
  ∃ (e₁ : ServerRun P) (job : Job) (conn : Conn) (envelope : Envelope)
    (request : ChatRequest) (s : ServerState) (createdAtMs : UInt64),
    Execution.Later e₁ e ∧ Received e₁ conn envelope ∧
    Handles job conn envelope ∧ envelope.type = .chatReq ∧
    envelope.chatReq? = some request ∧ request.fromUid = fromUid ∧
    Did e₁ job (.getUidByConn conn) fromUid s ∧
    SoleConnection s fromUid conn ∧
    WrittenBy e id job e₁.state fromUid request.toUid request.content
      request.clientMsgId createdAtMs

theorem sentBy {e : ServerRun P} {id : UInt64} {m : Message}
    (hm : e.ledger.find id = some m) :
    m.fromUid ≠ 0 ∧ SentBy e id m.fromUid := by
  obtain ⟨job, s₁, e₁, e₂, t, answer, rfl, hnext, hlater, hledger⟩ :=
    (accounted e id m hm).written
  obtain ⟨conn, envelope, s, hhandles, htype, hrequest, hfrom, hdid⟩ :
      Justified job e₁ (.redis (.evalCreateMessage m.fromUid m.toUid m.content
        m.clientMsgId m.createdAtMs)) := justified_of_next hnext
  refine ⟨hfrom, e₁, job, conn, envelope, _, s, m.createdAtMs,
    hnext.later.trans hlater, hdid.received hhandles, hhandles, htype, hrequest,
    rfl, hdid, hdid.soleConnection hfrom, e₁, e₂, t, answer, rfl, hnext, hlater,
    hledger⟩

/-! ## Acknowledgements -/

/-- The step is the execution of `markAcked` by a handler that is handling an
acknowledgement of the message, received on the connection on which the receiver
was logged in when the handler checked. -/
def AckedBy (e : ServerRun P) (l : ServerLabel) (id toUid : UInt64) : Prop :=
  ∃ t job now answer conn envelope ack s,
    l = .execute t job (.redis (.evalMarkAckedScript id toUid now)) answer ∧
    Received e conn envelope ∧ Handles job conn envelope ∧
    envelope.type = .ack ∧ envelope.ack? = some ack ∧ ack.msgId = id ∧
    Did e job (.getUidByConn conn) toUid s ∧ SoleConnection s toUid conn

theorem ackedBy {e e' : ServerRun P} {l : ServerLabel} {id : UInt64}
    {m' : Message} (hnext : Execution.Next e l e')
    (hbefore : ∀ m, e.ledger.find id = some m → m.status ≠ .acked)
    (hm' : e'.ledger.find id = some m') (hacked : m'.status = .acked) :
    (∃ m, e.ledger.find id = some m ∧ m.toUid = m'.toUid) ∧
      AckedBy e l id m'.toUid := by
  rcases ServerRun.ledger_next hnext with
    hledger | ⟨t, job, request, answer, rfl, hledger⟩
  · rw [hledger] at hm'
    exact absurd hacked (hbefore m' hm')
  · have hjustified := justified_of_next hnext
    rw [hledger] at hm'
    rcases Ledger.find_after_cases hm' with
      hm | ⟨fromUid, toUid, content, clientMsgId, now, rfl, -, -, rfl⟩ |
      ⟨m, script, now, rfl, hm, rfl⟩ | ⟨m, now, rfl, hm, rfl⟩ |
      ⟨m, rfl, hm, rfl⟩
    · exact absurd hacked (hbefore m' hm)
    · cases hacked
    · rcases script with _ | _ | _
      · cases hacked
      · cases hacked
      · cases hacked
    · obtain ⟨conn, envelope, ack, s, hhandles, htype, hack, hid, huid, hdid⟩ :=
        hjustified
      exact ⟨⟨m, hm, rfl⟩, t, job, now, answer, conn, envelope, ack, s, rfl,
        hdid.received hhandles, hhandles, htype, hack, hid, hdid,
        hdid.soleConnection huid⟩
    · exact absurd hacked (hbefore m hm)

/-! ## The guarantee -/

/-- Identity safety.  Every message of the ledger has a sender, who was logged
in on the connection of the request that created it.  A step that makes a
message acknowledged handles an acknowledgement from its receiver.  A push goes
to the connection that the handler's latest lookup found for the receiver; a
push with history goes to the one found for the sender or the receiver. -/
theorem identity_safety :
    (∀ (e : ServerRun P) (id : UInt64), HasMessage e.state.store.db id →
      ∃ fromUid,
        fieldOf e.state.store.db (makeMessageKey id) (literal "from_uid") =
          some (toText fromUid) ∧
        fromUid ≠ 0 ∧ SentBy e id fromUid) ∧
    (∀ (e e' : ServerRun P) (l : ServerLabel) (id : UInt64),
      Execution.Next e l e' →
      fieldOf e.state.store.db (makeMessageKey id) (literal "status") ≠
        some (literal "Acked") →
      fieldOf e'.state.store.db (makeMessageKey id) (literal "status") =
        some (literal "Acked") →
      ∃ toUid,
        fieldOf e.state.store.db (makeMessageKey id) (literal "to_uid") =
          some (toText toUid) ∧
        AckedBy e l id toUid) ∧
    (∀ (e e' : ServerRun P) (t : Thread) (job : Job) (conn : Conn)
        (envelope : Envelope) (push : ChatPush),
      Execution.Next e (.execute t job (.sendEnvelope conn envelope) ()) e' →
      envelope.chatPush? = some push →
      ∃ fromUid toUid uid s,
        fieldOf e.state.store.db (makeMessageKey push.msgId)
          (literal "from_uid") = some (toText fromUid) ∧
        fieldOf e.state.store.db (makeMessageKey push.msgId)
          (literal "to_uid") = some (toText toUid) ∧
        LastLookup e job uid conn s ∧ SoleConnection s uid conn ∧
        (push.history = false → uid = toUid) ∧
        (push.history = true → uid = fromUid ∨ uid = toUid)) := by
  refine ⟨?_, ?_, ?_⟩
  · intro e id hmessage
    obtain ⟨m, hm⟩ := (hasMessage_iff e.represents id).mp hmessage
    exact ⟨m.fromUid, (e.represents.fromUid_iff id _).mpr ⟨m, hm, rfl⟩,
      sentBy hm⟩
  · intro e e' l id hnext hbefore hafter
    obtain ⟨m', hm', hacked⟩ := (e'.represents.status_iff id .acked).mp hafter
    have hnot : ∀ m, e.ledger.find id = some m → m.status ≠ .acked := by
      intro m hm hstatus
      exact hbefore ((e.represents.status_iff id .acked).mpr ⟨m, hm, hstatus⟩)
    obtain ⟨htoUid, hackedBy⟩ := ackedBy hnext hnot hm' hacked
    exact ⟨m'.toUid, (e.represents.toUid_iff id _).mpr htoUid, hackedBy⟩
  · intro e e' t job conn envelope push hnext hpush
    obtain ⟨-, hpushes⟩ : Justified job e (.sendEnvelope conn envelope) :=
      justified_of_next hnext
    obtain ⟨m, uid, s, hm, -, -, -, hlookup, huid⟩ :=
      hpushes push (Envelope.chatPush?_eq_some.mp hpush)
    refine ⟨m.fromUid, m.toUid, uid, s,
      (e.represents.fromUid_iff _ _).mpr ⟨m, hm, rfl⟩,
      (e.represents.toUid_iff _ _).mpr ⟨m, hm, rfl⟩, hlookup,
      hlookup.soleConnection, ?_, ?_⟩
    · intro hhistory
      rcases huid with huid | ⟨hhistory', -⟩
      · exact huid
      · rw [hhistory] at hhistory'
        cases hhistory'
    · intro _
      rcases huid with huid | ⟨-, huid⟩
      · exact .inr huid
      · exact .inl huid

/-! ## What a positive acknowledgement says -/

/-- Some message is stored for this sender and client id. -/
def StoredUnder (db : Db) (fromUid : UInt64) (clientMsgId : Bytes) : Prop :=
  ∃ id, fieldOf db (makeMessageKey id) (literal "from_uid") =
      some (toText fromUid) ∧
    fieldOf db (makeMessageKey id) (literal "client_msg_id") = some clientMsgId

theorem storedUnder_iff {db : Db} {L : Ledger}
    (hL : Represents (entriesOf db) L) (fromUid : UInt64)
    (clientMsgId : Bytes) :
    StoredUnder db fromUid clientMsgId ↔
      ∃ id m, L.find id = some m ∧ m.clientKey = (fromUid, clientMsgId) := by
  constructor
  · rintro ⟨id, hfrom, hclient⟩
    obtain ⟨m, hm, hfromUid⟩ := (hL.fromUid_iff id fromUid).mp hfrom
    obtain ⟨-, -, -, hstored, -⟩ := originStored hL hm
    rw [hstored, Option.some.injEq] at hclient
    refine ⟨id, m, hm, ?_⟩
    rw [Message.clientKey, hfromUid, hclient]
  · rintro ⟨id, m, hm, hkey⟩
    obtain ⟨hfrom, -, -, hclient, -⟩ := originStored hL hm
    rw [Message.clientKey, Prod.mk.injEq] at hkey
    refine ⟨id, ?_, ?_⟩
    · rw [hfrom, hkey.1]
    · rw [hclient, hkey.2]

/-- A positive acknowledgement answers a chat request, and the record it names
has the request's sender and client id.  If nothing was stored for that pair
when the store handled the request, the record is exactly the request's.
Otherwise the record is the one stored before, as it was. -/
theorem positive_ack_names_record {e e' : ServerRun P} {t : Thread} {job : Job}
    {conn : Conn} {ackEnvelope : Envelope} {ack : Ack}
    (hsend : Execution.Next e
      (.execute t job (.sendEnvelope conn ackEnvelope) ()) e')
    (hack : ackEnvelope.payload = some (.ack ack)) (hok : ack.ok = true) :
    ∃ envelope request s now answer toUid content createdAtMs,
      Received e conn envelope ∧ Handles job conn envelope ∧
      envelope.type = .chatReq ∧ envelope.chatReq? = some request ∧
      ack.seq = envelope.seq ∧
      Did e job (.redis (.evalCreateMessage request.fromUid request.toUid
        request.content request.clientMsgId now)) answer s ∧
      OriginStored e.state.store.db ack.msgId request.fromUid toUid content
        request.clientMsgId createdAtMs ∧
      (¬StoredUnder s.store.db request.fromUid request.clientMsgId →
        toUid = request.toUid ∧ content = request.content) ∧
      (StoredUnder s.store.db request.fromUid request.clientMsgId →
        OriginStored s.store.db ack.msgId request.fromUid toUid content
          request.clientMsgId createdAtMs) := by
  obtain ⟨hacks, -⟩ : Justified job e (.sendEnvelope conn ackEnvelope) :=
    justified_of_next hsend
  obtain ⟨envelope, hhandles, hseq, -, hpositive⟩ := hacks ack hack
  obtain ⟨htype, request, now, answer, s, hrequest, hdid, hcreated, hid⟩ :=
    hpositive hok
  obtain ⟨m, e₂, hlater, hm, hkey, -, hcases⟩ := created_of_did hdid hcreated
  rw [hid] at hm hcases
  rw [Message.clientKey, Prod.mk.injEq] at hkey
  obtain ⟨m', hm', horigin, -⟩ := (ServerRun.extends_later hlater).2 _ m hm
  simp only [Message.origin, Prod.mk.injEq] at horigin
  obtain ⟨hfrom, hto, hcontent, hclient, hcreatedAt⟩ := horigin
  have hstored : OriginStored e.state.store.db ack.msgId request.fromUid
      m.toUid m.content request.clientMsgId m.createdAtMs := by
    have hnow := originStored e.represents hm'
    rw [hfrom, hto, hcontent, hclient, hcreatedAt, hkey.1, hkey.2] at hnow
    exact hnow
  have hrepresents : Represents (entriesOf s.store.db) s.store.ledger :=
    s.store.represents_ledger
  refine ⟨envelope, request, s, now, answer, m.toUid, m.content, m.createdAtMs,
    hdid.received hhandles, hhandles, htype, hrequest, hseq, hdid, hstored,
    ?_, ?_⟩
  · intro hfree
    rcases hcases with hold | ⟨-, rfl⟩
    · refine absurd ?_ hfree
      exact (storedUnder_iff hrepresents _ _).mpr
        ⟨ack.msgId, m, hold, Prod.ext hkey.1 hkey.2⟩
    · exact ⟨rfl, rfl⟩
  · intro htaken
    rcases hcases with hold | ⟨hfree, -⟩
    · have hbefore := originStored hrepresents hold
      rw [hkey.1, hkey.2] at hbefore
      exact hbefore
    · exact absurd ((storedUnder_iff hrepresents _ _).mp htaken) hfree

/-- User 1 sends two different messages without a client id. -/
def unnamedChats : List Choice :=
  [.connect 0, .receive 0 (loginAs 1)] ++ complete 0 20 ++
    [.receive 0 (chatFrom 1 2 7 (literal "hi") [])] ++ complete 0 20 ++
    [.receive 0 (chatFrom 1 3 8 (literal "bye") [])] ++ work 0 4

/-- The answer to the second of them. -/
def duplicateAck : Envelope where
  type := .ack
  seq := 8
  timestampMs := 1000
  payload := some (.ack
    { msgId := 1, seq := 8, ok := true, reason := literal "duplicate message" })

theorem unnamedChats_issues :
    ((serverDriver wirePlatform).follow {} unnamedChats).issues (.worker 0) =
      some (⟨2, .event (.envelope 0 (chatFrom 1 3 8 (literal "bye") []))⟩,
        .sendEnvelope 0 duplicateAck) := by
  decide +kernel

/-- The second message is acknowledged under the record of the first. -/
theorem positive_ack_for_other_message :
    ¬∀ (e e' : ServerRun wirePlatform) (t : Thread) (job : Job) (conn : Conn)
        (envelope ackEnvelope : Envelope) (request : ChatRequest) (ack : Ack),
      Execution.Next e
        (.execute t job (.sendEnvelope conn ackEnvelope) ()) e' →
      Handles job conn envelope → envelope.type = .chatReq →
      envelope.chatReq? = some request →
      ackEnvelope.payload = some (.ack ack) → ack.ok = true →
      fieldOf e.state.store.db (makeMessageKey ack.msgId)
          (literal "from_uid") = some (toText request.fromUid) ∧
        fieldOf e.state.store.db (makeMessageKey ack.msgId)
          (literal "to_uid") = some (toText request.toUid) ∧
        fieldOf e.state.store.db (makeMessageKey ack.msgId)
          (literal "content") = some request.content := by
  intro hnames
  obtain ⟨e, hstate, -⟩ := exists_run wirePlatform unnamedChats
  have hissues := unnamedChats_issues
  rw [← hstate] at hissues
  have hfield : fieldOf e.state.store.db (makeMessageKey 1)
      (literal "to_uid") = some (toText 2) := by
    rw [hstate]
    decide +kernel
  obtain ⟨e', hnext, -⟩ := exists_execute 1000 hissues
  obtain ⟨-, hto, -⟩ := hnames e e' _ _ _ _ _ _ _ hnext rfl rfl rfl rfl rfl
  rw [hfield, Option.some.injEq, toText_inj] at hto
  exact absurd hto (by decide)

theorem positive_ack_names_record_unnamedChats :
    ∃ e e' : ServerRun wirePlatform,
      Execution.Next e (.execute (.worker 0)
        ⟨2, .event (.envelope 0 (chatFrom 1 3 8 (literal "bye") []))⟩
        (.sendEnvelope 0 duplicateAck) ()) e' ∧
      ∃ fromUid toUid content clientMsgId createdAtMs,
        OriginStored e.state.store.db 1 fromUid toUid content clientMsgId
          createdAtMs := by
  obtain ⟨e, hstate, -⟩ := exists_run wirePlatform unnamedChats
  have hissues := unnamedChats_issues
  rw [← hstate] at hissues
  obtain ⟨e', hnext, -⟩ := exists_execute 1000 hissues
  obtain ⟨envelope, request, s, now, answer, toUid, content, createdAtMs, -, -,
    -, -, -, -, hstored, -⟩ := positive_ack_names_record hnext rfl rfl
  exact ⟨e, e', hnext, request.fromUid, toUid, content, request.clientMsgId,
    createdAtMs, hstored⟩

end ReliableDelivery
