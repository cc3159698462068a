import ReliableDelivery.Server.Justification
import ReliableDelivery.Server.Schedule

/-!
# No acknowledged message is lost

Every message of the ledger was written by one creation, and its origin has not
changed since.  A message is acknowledged only if its receiver did so, and
failed only after enough retries.  Together with the representation of the
ledger in Redis this says where a message is once its sender has been told that
it was accepted.
-/

namespace ReliableDelivery

open Decimal Redis TransitionSystem

variable {P : Platform}

/-- The message was written by this creation in state `s`: it was not there
before and it was there afterwards. -/
def WrittenBy (e : ServerRun P) (id : UInt64) (job : Job) (s : ServerState)
    (fromUid toUid : UInt64) (content clientMsgId : Bytes)
    (createdAtMs : UInt64) : Prop :=
  ∃ (e₁ e₂ : ServerRun P) (t : Thread) (answer : Option Reply), e₁.state = s ∧
    Execution.Next e₁ (.execute t job (.redis (.evalCreateMessage fromUid toUid
      content clientMsgId createdAtMs)) answer) e₂ ∧
    Execution.Later e₂ e ∧ e₁.ledger.find id = none ∧
    e₂.ledger.find id =
      some (.new fromUid toUid content clientMsgId createdAtMs)

/-- An acknowledgement of the message was received and handled on a connection
on which `uid` was logged in when the handler checked. -/
def AckHandled (e : ServerRun P) (id uid : UInt64) : Prop :=
  ∃ job conn envelope ack s, Received e conn envelope ∧
    Handles job conn envelope ∧
    envelope.type = .ack ∧ envelope.ack? = some ack ∧ ack.msgId = id ∧
    uid ≠ 0 ∧ Did e job (.getUidByConn conn) uid s ∧
    s.users.getUidByConn (some conn) = uid

/-- What the run says about each message of the ledger. -/
structure Accounted (e : ServerRun P) (id : UInt64) (m : Message) : Prop where
  written : ∃ job s, WrittenBy e id job s m.fromUid m.toUid m.content
    m.clientMsgId m.createdAtMs
  acked : m.status = .acked → AckHandled e id m.toUid
  failed : m.status = .failed → kMaxDeliveryRetryCount ≤ m.retryCount

/-! ## Steps -/

theorem WrittenBy.mono {e e' : ServerRun P} {id : UInt64} {job : Job}
    {s : ServerState} {fromUid toUid createdAtMs : UInt64}
    {content clientMsgId : Bytes}
    (h : WrittenBy e id job s fromUid toUid content clientMsgId createdAtMs)
    (hlater : Execution.Later e e') :
    WrittenBy e' id job s fromUid toUid content clientMsgId createdAtMs := by
  obtain ⟨e₁, e₂, t, answer, hs, hnext, hlater', hledger⟩ := h
  exact ⟨e₁, e₂, t, answer, hs, hnext, hlater'.trans hlater, hledger⟩

/-- A message that was written is still there, with the same origin. -/
theorem WrittenBy.find {e : ServerRun P} {id : UInt64} {job : Job}
    {s : ServerState} {fromUid toUid createdAtMs : UInt64}
    {content clientMsgId : Bytes}
    (h : WrittenBy e id job s fromUid toUid content clientMsgId createdAtMs) :
    ∃ m, e.ledger.find id = some m ∧
      m.origin = (fromUid, toUid, content, clientMsgId, createdAtMs) := by
  obtain ⟨e₁, e₂, t, answer, -, -, hlater, -, hafter⟩ := h
  obtain ⟨m, hm, horigin, -⟩ :=
    (ServerRun.extends_later hlater).2 id _ hafter
  exact ⟨m, hm, horigin⟩

theorem AckHandled.mono {e e' : ServerRun P} {id uid : UInt64}
    (h : AckHandled e id uid) (hlater : Execution.Later e e') :
    AckHandled e' id uid := by
  obtain ⟨job, conn, envelope, ack, s, hreceived, hhandles, htype, hack, hid,
    huid, hdid, hbound⟩ := h
  exact ⟨job, conn, envelope, ack, s, hreceived.mono hlater, hhandles, htype,
    hack, hid, huid, hdid.mono hlater, hbound⟩

/-- A message that keeps its origin and its account is still accounted for. -/
theorem Accounted.mono {e e' : ServerRun P} {id : UInt64} {m m' : Message}
    (h : Accounted e id m) (hlater : Execution.Later e e')
    (horigin : m'.origin = m.origin)
    (hacked : m'.status = .acked → AckHandled e' id m'.toUid)
    (hfailed : m'.status = .failed → kMaxDeliveryRetryCount ≤ m'.retryCount) :
    Accounted e' id m' := by
  obtain ⟨job, s, hwritten⟩ := h.written
  simp only [Message.origin, Prod.mk.injEq] at horigin
  obtain ⟨hfrom, hto, hcontent, hclient, hcreated⟩ := horigin
  refine ⟨⟨job, s, ?_⟩, hacked, hfailed⟩
  rw [hfrom, hto, hcontent, hclient, hcreated]
  exact hwritten.mono hlater

theorem accounted_next {e e' : ServerRun P} {l : ServerLabel}
    (h : ∀ id m, e.ledger.find id = some m → Accounted e id m)
    (hnext : Execution.Next e l e') (id : UInt64) (m' : Message)
    (hm' : e'.ledger.find id = some m') : Accounted e' id m' := by
  have hsame : e.ledger.find id = some m' → Accounted e' id m' := by
    intro hm
    have hold := h id m' hm
    exact hold.mono hnext.later rfl
      (fun hacked => (hold.acked hacked).mono hnext.later) hold.failed
  rcases ServerRun.ledger_next hnext with
    hledger | ⟨t, job, request, answer, rfl, hledger⟩
  · rw [hledger] at hm'
    exact hsame hm'
  · have hjustified := justified_of_next hnext
    rw [hledger] at hm'
    rcases Ledger.find_after_cases hm' with
      hm | ⟨fromUid, toUid, content, clientMsgId, now, rfl, -, hid, rfl⟩ |
      ⟨m, script, now, rfl, hm, rfl⟩ | ⟨m, now, rfl, hm, rfl⟩ |
      ⟨m, rfl, hm, rfl⟩
    · exact hsame hm
    · rw [← hledger] at hm'
      refine ⟨⟨job, e.state, e, e', t, answer, rfl, hnext,
        Execution.Later.refl e', ?_, hm'⟩, ?_, ?_⟩
      · rw [hid]
        exact e.ledger.find_nextId
      · intro hacked
        cases hacked
      · intro hfailed
        cases hfailed
    · have hold := h id m hm
      refine hold.mono hnext.later ((script.change now).origin m) ?_ ?_
      · intro hacked
        rcases script with _ | _ | _
        · cases hacked
        · cases hacked
        · cases hacked
      · intro hfailed
        rcases script with _ | _ | _
        · cases hfailed
        · cases hfailed
        · obtain ⟨m₀, hm₀, hretry⟩ := hjustified
          rw [hm, Option.some.injEq] at hm₀
          rw [hm₀]
          exact hretry
    · have hold := h id m hm
      refine hold.mono hnext.later rfl ?_ ?_
      · intro _
        obtain ⟨conn, envelope, ack, s, hhandles, htype, hack, hid, huid,
          hdid⟩ := hjustified
        exact ⟨job, conn, envelope, ack, s,
          (hdid.received hhandles).mono hnext.later, hhandles, htype, hack,
          hid, huid, hdid.mono hnext.later, hdid.getUidByConn⟩
      · intro hfailed
        cases hfailed
    · have hold := h id m hm
      refine hold.mono hnext.later rfl ?_ ?_
      · exact fun hacked => (hold.acked hacked).mono hnext.later
      · intro hfailed
        have hretry := hold.failed hfailed
        push_cast
        omega

/-- In every run, every message of the ledger is accounted for. -/
theorem accounted (e : ServerRun P) :
    ∀ id m, e.ledger.find id = some m → Accounted e id m := by
  apply Execution.induct (P := fun e : ServerRun P =>
    ∀ id m, e.ledger.find id = some m → Accounted e id m)
  · intro e _ hinit id m hm
    have hs : e.state = {} := hinit
    rw [ServerRun.ledger, hs] at hm
    simp only [StoreDb.ledger_empty] at hm
    cases hm
  · intro e e' l h hnext
    exact accounted_next h hnext

/-- A message is written while a request for it is handled. -/
theorem WrittenBy.request {e : ServerRun P} {id : UInt64} {job : Job}
    {s : ServerState} {fromUid toUid createdAtMs : UInt64}
    {content clientMsgId : Bytes}
    (h : WrittenBy e id job s fromUid toUid content clientMsgId createdAtMs) :
    ∃ conn envelope, Handles job conn envelope ∧ Received e conn envelope ∧
      envelope.type = .chatReq ∧
      envelope.chatReq? = some { fromUid, toUid, content, clientMsgId } := by
  obtain ⟨e₁, e₂, t, answer, -, hnext, hlater, -⟩ := h
  obtain ⟨conn, envelope, s, hhandles, htype, hrequest, -, hdid⟩ :
      Justified job e₁ (.redis (.evalCreateMessage fromUid toUid content
        clientMsgId createdAtMs)) := justified_of_next hnext
  have hreceived : Received e₁ conn envelope := hdid.received hhandles
  exact ⟨conn, envelope, hhandles,
    hreceived.mono (hnext.later.trans hlater), htype, hrequest⟩

/-! ## In the database -/

/-- The stored fields that are fixed at creation. -/
def OriginStored (db : Db) (id fromUid toUid : UInt64)
    (content clientMsgId : Bytes) (createdAtMs : UInt64) : Prop :=
  fieldOf db (makeMessageKey id) (literal "from_uid") =
      some (toText fromUid) ∧
    fieldOf db (makeMessageKey id) (literal "to_uid") = some (toText toUid) ∧
    fieldOf db (makeMessageKey id) (literal "content") = some content ∧
    fieldOf db (makeMessageKey id) (literal "client_msg_id") =
      some clientMsgId ∧
    fieldOf db (makeMessageKey id) (literal "created_at_ms") =
      some (toText createdAtMs)

theorem originStored {db : Db} {L : Ledger} {id : UInt64} {m : Message}
    (hL : Represents (entriesOf db) L) (hm : L.find id = some m) :
    OriginStored db id m.fromUid m.toUid m.content m.clientMsgId
      m.createdAtMs := by
  have hfields := hL.fields_message hm
  simp only [recordFields, Message.texts, List.map_cons,
    List.cons.injEq] at hfields
  exact ⟨hfields.2.1, hfields.2.2.1, hfields.2.2.2.1, hfields.2.2.2.2.1,
    hfields.2.2.2.2.2.2.1⟩

/-- The status field, and the index or the reason that goes with it. -/
def Placed (e : ServerRun P) (id toUid : UInt64) : Prop :=
  (fieldOf e.state.store.db (makeMessageKey id) (literal "status") =
      some (literal "Pending") ∧
    (scoreOf e.state.store.db (makePendingKey toUid) (toText id)).isSome) ∨
  (fieldOf e.state.store.db (makeMessageKey id) (literal "status") =
      some (literal "Delivered") ∧
    (scoreOf e.state.store.db kRedisDeliveredTimeoutKey (toText id)).isSome) ∨
  (fieldOf e.state.store.db (makeMessageKey id) (literal "status") =
      some (literal "Acked") ∧ AckHandled e id toUid) ∨
  (fieldOf e.state.store.db (makeMessageKey id) (literal "status") =
      some (literal "Failed") ∧
    ∃ n : ℕ, kMaxDeliveryRetryCount ≤ n ∧
      fieldOf e.state.store.db (makeMessageKey id) (literal "retry_count") =
        some (render n))

theorem placed {e : ServerRun P} {id : UInt64} {m : Message}
    (hm : e.ledger.find id = some m) : Placed e id m.toUid := by
  have hL := e.represents
  have hstatus := (hL.status_iff id m.status).mpr ⟨m, hm, rfl⟩
  have haccounted := accounted e id m hm
  cases hcase : m.status with
  | pending =>
      rw [hcase] at hstatus
      refine .inl ⟨hstatus, ?_⟩
      have hscore := ((hL.pending m.toUid).scoreOf_iff (toText id)
        m.createdAtMs.toNat).mpr
          ⟨id, m, rfl, hm, by rw [pendingScore, if_pos ⟨rfl, hcase⟩]⟩
      exact Option.isSome_iff_exists.mpr ⟨_, hscore⟩
  | delivered =>
      rw [hcase] at hstatus
      refine .inr (.inl ⟨hstatus, ?_⟩)
      have hscore := (hL.timeout.scoreOf_iff (toText id)
        m.deliveredAtMs.toNat).mpr
          ⟨id, m, rfl, hm, by rw [timeoutScore, if_pos hcase]⟩
      exact Option.isSome_iff_exists.mpr ⟨_, hscore⟩
  | acked =>
      rw [hcase] at hstatus
      exact .inr (.inr (.inl ⟨hstatus, haccounted.acked hcase⟩))
  | failed =>
      rw [hcase] at hstatus
      refine .inr (.inr (.inr ⟨hstatus, m.retryCount,
        haccounted.failed hcase, ?_⟩))
      exact field_retryCount (hL.fields_message hm)

/-- No acknowledged message is lost.  Once the server has sent a positive
acknowledgement for a message, the message stays in Redis with the origin it was
created with.  It is pending and in its receiver's index, or delivered and in
the timeout index, or its receiver has acknowledged it, or it has failed after
enough retries.  Calls to Redis may fail at any time. -/
theorem acknowledged_message_kept {e₁ e₂ e₃ : ServerRun P} {t : Thread}
    {job : Job} {conn : Conn} {envelope : Envelope} {ack : Ack}
    (hsend : Execution.Next e₁
      (.execute t job (.sendEnvelope conn envelope) ()) e₂)
    (hack : envelope.payload = some (.ack ack)) (hok : ack.ok = true)
    (hlater : Execution.Later e₂ e₃) :
    ∃ fromUid toUid content clientMsgId createdAtMs,
      (∃ job' s, WrittenBy e₁ ack.msgId job' s fromUid toUid content
        clientMsgId createdAtMs) ∧
      HasMessage e₃.state.store.db ack.msgId ∧
      OriginStored e₃.state.store.db ack.msgId fromUid toUid content
        clientMsgId createdAtMs ∧
      Placed e₃ ack.msgId toUid := by
  obtain ⟨hacks, -⟩ : Justified job e₁ (.sendEnvelope conn envelope) :=
    justified_of_next hsend
  obtain ⟨request, -, -, -, hpositive⟩ := hacks ack hack
  obtain ⟨-, _, _, answer, _, -, hcreate, hcreated, hid⟩ := hpositive hok
  obtain ⟨m, hm, -⟩ := known_of_created hcreate hcreated
  rw [hid] at hm
  obtain ⟨job', s, hwritten⟩ := (accounted e₁ ack.msgId m hm).written
  obtain ⟨m', hm', horigin, -⟩ :=
    (ServerRun.extends_later (hsend.later.trans hlater)).2 _ m hm
  simp only [Message.origin, Prod.mk.injEq] at horigin
  obtain ⟨hfrom, hto, hcontent, hclient, hcreated⟩ := horigin
  refine ⟨m.fromUid, m.toUid, m.content, m.clientMsgId, m.createdAtMs,
    ⟨job', s, hwritten⟩, (hasMessage_iff e₃.represents _).mpr ⟨m', hm'⟩,
    ?_, ?_⟩
  · rw [← hfrom, ← hto, ← hcontent, ← hclient, ← hcreated]
    exact originStored e₃.represents hm'
  · rw [← hto]
    exact placed hm'

/-- User 1 writes to user 2, who has never logged in. -/
def offlineChat : List Choice :=
  [.connect 0, .receive 0 (loginAs 1)] ++ complete 0 20 ++
    [.receive 0 (chatFrom 1 2 7 (literal "hi") (literal "a"))] ++ work 0 7

theorem acknowledged_message_kept_offlineChat :
    ∃ e₁ e₂ : ServerRun wirePlatform,
      Execution.Next e₁ (.execute (.worker 0)
        ⟨1, .event (.envelope 0
          (chatFrom 1 2 7 (literal "hi") (literal "a")))⟩
        (.sendEnvelope 0
          { type := .ack, seq := 7, timestampMs := 1000,
            payload := some (.ack { msgId := 1, seq := 7, ok := true }) })
        ()) e₂ ∧
      ∃ fromUid toUid content clientMsgId createdAtMs,
        (∃ job' s, WrittenBy e₁ 1 job' s fromUid toUid content clientMsgId
          createdAtMs) ∧
        HasMessage e₂.state.store.db 1 ∧
        OriginStored e₂.state.store.db 1 fromUid toUid content clientMsgId
          createdAtMs ∧
        Placed e₂ 1 toUid := by
  obtain ⟨e₁, hstate, -⟩ := exists_run wirePlatform offlineChat
  have hissues : e₁.state.issues (.worker 0) = some
      (⟨1, .event (.envelope 0
          (chatFrom 1 2 7 (literal "hi") (literal "a")))⟩,
        .sendEnvelope 0
          { type := .ack, seq := 7, timestampMs := 1000,
            payload := some (.ack { msgId := 1, seq := 7, ok := true }) }) := by
    rw [hstate]
    decide +kernel
  obtain ⟨e₂, hnext, -⟩ := exists_execute 1000 hissues
  exact ⟨e₁, e₂, hnext,
    acknowledged_message_kept hnext rfl rfl (Execution.Later.refl e₂)⟩

end ReliableDelivery
