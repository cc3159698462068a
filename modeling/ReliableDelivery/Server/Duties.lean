import ReliableDelivery.Server.Dispatcher

/-!
# What a handler is bound to do

Some answers oblige a handler to a later command.  A login that has succeeded is
bound to read the user's pending messages.  A handler that has read or created a
pending message is bound to mark it delivered, as long as its receiver is online
and the message stays pending.  Every handler meets these duties, whatever other
answers it gets.
-/

namespace ReliableDelivery

open Decimal Redis MessageStore EnvelopeFactory Program

/-- The answers that a thread gets while the user is online on the connection
and the message is pending for them. -/
def SeesPending (uid : UInt64) (conn : Conn) (id : UInt64) :
    (command : Command) → command.Answer → Prop
  | .getConnByUid uid', answer => uid' = uid → answer = some conn
  | .connected conn', answer => conn' = conn → answer = true
  | .redis (.hmgetRecord id'), answer => id' = id →
      ∃ record, readRecordReply answer = some record ∧ record.msgId = id ∧
        record.toUid = uid ∧ record.status = .pending
  | _, _ => True

def ReadsPending (uid : UInt64) (command : Command) : Prop :=
  command = .redis (.zrangePending uid)

def MarksDelivered (id : UInt64) (command : Command) : Prop :=
  ∃ now, command = .redis (.evalMsgStateScript .markDelivered id now)

/-- The reply of an index lists the message. -/
def Lists (answer : Option Reply) (id : UInt64) : Prop :=
  ∃ element ∈ replyElements answer, parseUint64 element = some id

/-- What an answer obliges the handler to. -/
inductive Owes : (command : Command) → command.Answer →
    Duty Command Command.Answer → Prop where
  | login (conn : Conn) (uid : UInt64) :
      Owes (.bindUser conn uid) true ⟨fun _ _ => True, ReadsPending uid⟩
  | read (uid : UInt64) (conn : Conn) (id : UInt64) (answer : Option Reply)
      (hid : id ≠ 0) (hlists : Lists answer id) :
      Owes (.redis (.zrangePending uid)) answer
        ⟨SeesPending uid conn id, MarksDelivered id⟩
  | create (fromUid toUid : UInt64) (content clientMsgId : Bytes)
      (now : UInt64) (conn : Conn) (answer : Option Reply)
      (hok : (readCreateReply answer).ok = true)
      (hcreated : (readCreateReply answer).created = true)
      (hto : (readCreateReply answer).record.toUid = toUid)
      (hstatus : (readCreateReply answer).record.status = .pending) :
      Owes (.redis (.evalCreateMessage fromUid toUid content clientMsgId now))
        answer
        ⟨SeesPending toUid conn (readCreateReply answer).record.msgId,
          MarksDelivered (readCreateReply answer).record.msgId⟩

/-! ## Delivery leads to the mark -/

section Leads

variable {uid : UInt64} {conn : Conn} {id : UInt64}

theorem leads_onlineTarget :
    Leads (SeesPending uid conn id) (MarksDelivered id)
      (fun o => o = some conn) (onlineTarget uid) := by
  apply (leads_perform _).bind
  intro answer hanswer
  have htarget : answer = some conn := hanswer rfl
  subst htarget
  apply (leads_perform _).bind
  intro connected hconnected
  have hup : connected = true := hconnected rfl
  subst hup
  rfl

theorem leads_markDelivered {post : Bool → Prop} :
    Leads (SeesPending uid conn id) (MarksDelivered id) post
      (markDelivered id : Handler _) := by
  apply (leads_true Handler.nowMs).bind
  intro now _
  exact .inl ⟨now, rfl⟩

theorem leads_pushAndMark {record : MessageRecord} (hid : record.msgId = id) :
    Leads (SeesPending uid conn id) (MarksDelivered id) (fun _ => False)
      (pushAndMark conn record) := by
  apply (leads_true (createRecordPush record false)).bind
  intro push _
  apply (leads_true (sendEnvelope conn push)).bind
  intro _ _
  rw [hid]
  exact leads_markDelivered.bind_of_false

theorem leads_tryDeliverMessage {record : MessageRecord}
    (hid : record.msgId = id) (hto : record.toUid = uid)
    (hstatus : record.status = .pending) :
    Leads (SeesPending uid conn id) (MarksDelivered id) (fun _ => False)
      (tryDeliverMessage record) := by
  have hopen : ¬(record.status = .acked ∨ record.status = .failed) := by
    rw [hstatus]
    decide
  rw [tryDeliverMessage, if_neg hopen, hto]
  apply leads_onlineTarget.bind
  rintro o rfl
  exact leads_pushAndMark hid

/-- A pending message that the index lists is among the records. -/
theorem leads_collectPending {elements : List Reply} {element : Reply}
    (hmem : element ∈ elements) (hparse : parseUint64 element = some id)
    (hid : id ≠ 0) :
    Leads (SeesPending uid conn id) (MarksDelivered id)
      (fun l => ∃ record ∈ l, record.msgId = id ∧ record.toUid = uid ∧
        record.status = .pending)
      (collect elements (fetchElement fun record =>
        record.toUid = uid && record.status = .pending) : Handler _) := by
  have hfetch : Leads (SeesPending uid conn id) (MarksDelivered id)
      (fun o => ∃ record, o = some record ∧ record.msgId = id ∧
        record.toUid = uid ∧ record.status = .pending)
      (fetchRecord id : Handler _) := by
    simp only [fetchRecord, if_neg hid]
    exact (leads_perform _).bind fun _ hanswer => hanswer rfl
  refine leads_collect hmem ?_
  simp only [fetchElement, hparse]
  apply hfetch.bind
  rintro _ ⟨record, rfl, hrecord⟩
  refine ⟨record, ?_, hrecord⟩
  rw [Option.mem_def, Option.filter_eq_some_iff]
  exact ⟨rfl, by simp [hrecord.2.1, hrecord.2.2]⟩

/-- The rest of `deliverPendingMessages` after the index has been read. -/
theorem leads_afterRead {answer : Option Reply} (hlists : Lists answer id)
    (hid : id ≠ 0) :
    Leads (SeesPending uid conn id) (MarksDelivered id) (fun _ => False)
      ((collect (replyElements answer) (fetchElement fun record =>
        record.toUid = uid && record.status = .pending) : Handler _).bind
          fun records => (forEach records fun record => do
            let _ ← tryDeliverMessage record
            pure ()).bind fun _ => .done (!records.isEmpty)) := by
  obtain ⟨element, hmem, hparse⟩ := hlists
  apply (leads_collectPending hmem hparse hid).bind
  rintro records ⟨record, hrecord, hmsgId, hto, hstatus⟩
  apply Leads.bind_of_false
  refine leads_forEach hrecord ?_
  exact (leads_tryDeliverMessage hmsgId hto hstatus).bind_of_false

end Leads

/-! ## The handlers meet their duties -/

/-- A command that obliges to nothing. -/
theorem pays_plain {command : Command}
    (h : ∀ answer d, ¬Owes command answer d) :
    Pays Owes (perform command : Handler _) :=
  pays_perform h

theorem pays_nowMs : Pays Owes Handler.nowMs :=
  pays_plain (by intro _ _ h; cases h)

theorem pays_sendEnvelope (conn : Conn) (envelope : Envelope) :
    Pays Owes (sendEnvelope conn envelope) :=
  pays_plain (by intro _ _ h; cases h)

theorem pays_fetchElement (keep : MessageRecord → Bool) (element : Reply) :
    Pays Owes (fetchElement keep element : Handler _) := by
  simp only [fetchElement]
  split
  · trivial
  · next msgId _ =>
      have hfetch : Pays Owes (fetchRecord msgId : Handler _) := by
        simp only [fetchRecord]
        split
        · trivial
        · exact (pays_plain (by intro _ _ h; cases h)).bind fun _ => trivial
      exact hfetch.bind fun _ => trivial

theorem pays_collect_fetchElement (keep : MessageRecord → Bool)
    (elements : List Reply) :
    Pays Owes (collect elements (fetchElement keep) : Handler _) :=
  pays_collect fun element _ => pays_fetchElement keep element

theorem pays_createRecordPush (record : MessageRecord) (history : Bool) :
    Pays Owes (createRecordPush record history) := by
  refine pays_nowMs.bind fun now => ?_
  by_cases hstamp : record.createdAtMs = 0
  · rw [if_pos hstamp]
    exact pays_nowMs.bind fun _ => trivial
  · rw [if_neg hstamp]
    trivial

theorem pays_createAck (seq msgId : UInt64) (ok : Bool) (reason : Bytes) :
    Pays Owes (createAck seq msgId ok reason : Handler _) :=
  pays_nowMs.bind fun _ => trivial

theorem pays_sendErrorAck (conn : Conn) (seq : UInt64) (reason : Bytes) :
    Pays Owes (sendErrorAck conn seq reason) :=
  (pays_createAck _ _ _ _).bind fun _ => pays_sendEnvelope _ _

theorem pays_onlineTarget (uid : UInt64) : Pays Owes (onlineTarget uid) := by
  refine (pays_plain (by intro _ _ h; cases h)).bind fun target => ?_
  rcases target with _ | conn
  · trivial
  · exact (pays_plain (by intro _ _ h; cases h)).bind fun _ => trivial

theorem pays_evalMsgState (script : MsgStateScript) (msgId : UInt64) :
    Pays Owes (evalMsgState script msgId : Handler _) :=
  pays_nowMs.bind fun _ =>
    (pays_plain (by intro _ _ h; cases h)).bind fun _ => trivial

theorem pays_pushAndMark (conn : Conn) (record : MessageRecord) :
    Pays Owes (pushAndMark conn record) :=
  (pays_createRecordPush record false).bind fun _ =>
    (pays_sendEnvelope conn _).bind fun _ =>
      (pays_evalMsgState _ _).bind fun _ => trivial

theorem pays_tryDeliverMessage (record : MessageRecord) :
    Pays Owes (tryDeliverMessage record) := by
  rw [tryDeliverMessage]
  split
  · trivial
  · refine (pays_onlineTarget _).bind fun target => ?_
    rcases target with _ | conn
    · exact (pays_evalMsgState _ _).bind fun _ => trivial
    · exact pays_pushAndMark conn record

theorem pays_retryDeliverMessage (record : MessageRecord) :
    Pays Owes (retryDeliverMessage record) := by
  rw [retryDeliverMessage]
  split
  · trivial
  · refine (pays_onlineTarget _).bind fun target => ?_
    rcases target with _ | conn
    · exact (pays_evalMsgState _ _).bind fun _ => trivial
    · have hincrement : Pays Owes
          (incrementRetryCount record.msgId : Handler _) :=
        (pays_plain (by intro _ _ h; cases h)).bind fun _ => trivial
      exact hincrement.bind fun _ => pays_pushAndMark conn record

theorem pays_deliverPendingMessages (uid : UInt64) :
    Pays Owes (deliverPendingMessages uid) := by
  intro answer
  refine ⟨?_, ?_⟩
  · rintro d (_ | ⟨_, conn, id, _, hid, hlists⟩)
    exact leads_afterRead hlists hid
  · refine (pays_collect_fetchElement _ _).bind fun records => ?_
    have hloop : Pays Owes (forEach records fun record => do
        let _ ← tryDeliverMessage record
        pure ()) :=
      pays_forEach fun record _ =>
        (pays_tryDeliverMessage record).bind fun _ => trivial
    exact hloop.bind fun _ => trivial

theorem pays_sendRecentMessages (uid limit : UInt64) :
    Pays Owes (sendRecentMessages uid limit) := by
  have hrecent : Pays Owes (getRecentMessages uid limit : Handler _) := by
    simp only [getRecentMessages]
    split
    · trivial
    · exact (pays_plain (by intro _ _ h; cases h)).bind fun _ =>
        (pays_collect_fetchElement _ _).bind fun _ => trivial
  refine hrecent.bind fun records =>
    (pays_onlineTarget uid).bind fun target => ?_
  rcases target with _ | conn
  · trivial
  · exact pays_forEach fun record _ =>
      (pays_createRecordPush record true).bind fun _ => pays_sendEnvelope conn _

theorem pays_deliverLoginMessages (uid : UInt64) :
    Pays Owes (deliverLoginMessages uid) := by
  refine (pays_deliverPendingMessages uid).bind fun delivered => ?_
  split
  · trivial
  · exact pays_sendRecentMessages uid _

theorem pays_deliveryScan : Pays Owes deliveryScan := by
  have htimeout : ∀ now, Pays Owes
      (getTimeoutDeliveredMessages now kAckTimeoutMs : Handler _) := by
    intro now
    exact (pays_plain (by intro _ _ h; cases h)).bind fun _ =>
      pays_collect_fetchElement _ _
  refine pays_nowMs.bind fun now => (htimeout now).bind fun records => ?_
  refine pays_forEach fun record _ => ?_
  split
  · exact (pays_evalMsgState _ _).bind fun _ => trivial
  · exact (pays_retryDeliverMessage record).bind fun _ => trivial

/-- A successful login goes on to read the pending messages. -/
theorem pays_handleLogin (conn : Conn) (envelope : Envelope) :
    Pays Owes (handleLogin conn envelope) := by
  have hrest : ∀ (uid : UInt64) (result : Bool × Bytes), Pays Owes (do
      let response ← createLoginResponse envelope.seq result.1 result.2
      sendEnvelope conn response
      if result.1 then deliverLoginMessages uid else pure () :
        Handler Unit) := by
    intro uid result
    have hresponse : Pays Owes (createLoginResponse envelope.seq result.1
        result.2 : Handler _) := pays_nowMs.bind fun _ => trivial
    refine hresponse.bind fun response =>
      (pays_sendEnvelope conn response).bind fun _ => ?_
    split
    · exact pays_deliverLoginMessages uid
    · trivial
  have hleads : ∀ uid, Leads (fun _ _ => True) (ReadsPending uid)
      (fun _ => False) (do
        let response ← createLoginResponse envelope.seq true []
        sendEnvelope conn response
        deliverLoginMessages uid : Handler Unit) := by
    intro uid
    exact (leads_true _).bind fun response _ =>
      (leads_true (sendEnvelope conn response)).bind fun _ _ => .inl rfl
  rw [handleLogin, bindLogin]
  split
  · exact hrest _ _
  · intro bound
    refine ⟨?_, hrest _ _⟩
    rintro d ⟨⟩
    exact hleads _

/-- A message that was created goes on to be delivered. -/
theorem pays_storeAndDeliver (conn : Conn) (seq : UInt64)
    (request : ChatRequest) : Pays Owes (storeAndDeliver conn seq request) := by
  refine pays_nowMs.bind fun now answer => ⟨?_, ?_⟩
  · rintro d (_ | _ | ⟨_, _, _, _, _, target, _, hok, hcreated, hto, hstatus⟩)
    simp only [bind_eq, done_bind, pure_eq, hok, hcreated, Bool.true_eq_false,
      if_false]
    exact (leads_tryDeliverMessage rfl hto hstatus).bind_of_false
  · simp only [bind_eq, done_bind, pure_eq]
    split
    · exact pays_sendErrorAck _ _ _
    · split
      · exact (pays_createAck _ _ _ _).bind fun _ => pays_sendEnvelope _ _
      · exact (pays_tryDeliverMessage _).bind fun _ =>
          (pays_createAck _ _ _ _).bind fun _ => pays_sendEnvelope _ _

theorem pays_handleChat (conn : Conn) (envelope : Envelope) :
    Pays Owes (handleChat conn envelope) := by
  rw [handleChat]
  split
  · exact pays_sendErrorAck _ _ _
  · refine (pays_plain (by intro _ _ h; cases h)).bind fun uid => ?_
    split
    · exact pays_sendErrorAck _ _ _
    · split
      · exact pays_sendErrorAck _ _ _
      · exact pays_storeAndDeliver _ _ _

theorem pays_handleAck (conn : Conn) (envelope : Envelope) :
    Pays Owes (handleAck conn envelope) := by
  rw [handleAck]
  split
  · trivial
  · next ack _ =>
      split
      · trivial
      · refine (pays_plain (by intro _ _ h; cases h)).bind fun uid => ?_
        split
        · trivial
        · have hmark : Pays Owes (markAcked ack.msgId uid : Handler _) :=
            pays_nowMs.bind fun _ =>
              (pays_plain (by intro _ _ h; cases h)).bind fun _ => trivial
          exact hmark.bind fun _ => trivial

theorem pays_handle (event : ServerEvent) : Pays Owes (handle event) := by
  rcases event with ⟨conn, envelope⟩ | conn
  · simp only [handle]
    split
    · exact pays_handleLogin conn envelope
    · exact pays_handleChat conn envelope
    · exact pays_handleAck conn envelope
    · exact pays_plain (by intro _ _ h; cases h)
    · exact pays_sendErrorAck conn _ _
  · exact pays_plain (by intro _ _ h; cases h)

end ReliableDelivery
