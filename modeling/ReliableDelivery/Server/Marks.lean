import ReliableDelivery.Server.Dispatcher

/-!
# Which marks a handler can still make

The handlers read records, decide, and mark messages afterwards.  This module
follows the records through the handlers: if every record a handler can hold is
such that no forbidden mark follows from it, then the handler makes no forbidden
mark.  The rule is stated once, for any restriction of the answers that the
handler gets.
-/

namespace ReliableDelivery

open Decimal Redis MessageStore EnvelopeFactory Program

/-- The user can turn out to be unreachable. -/
def Unreachable (allowed : (command : Command) → command.Answer → Prop)
    (uid : UInt64) : Prop :=
  allowed (.getConnByUid uid) none ∨
    ∃ conn, allowed (.getConnByUid uid) (some conn) ∧
      allowed (.connected conn) false

/-- Only status scripts are forbidden. -/
def OnlyMarks (target : Command → Prop) : Prop :=
  ∀ command, target command → ∃ script msgId now,
    command = .redis (.evalMsgStateScript script msgId now)

/-- Answers are restricted to `allowed`; the commands in `target` are forbidden
marks; `held` is what is known of each record a handler holds. -/
structure MarkRule (allowed : (command : Command) → command.Answer → Prop)
    (target : Command → Prop) (held : MessageRecord → Prop) : Prop where
  onlyMarks : OnlyMarks target
  fetched : ∀ msgId answer record,
    allowed (.redis (.hmgetRecord msgId)) answer →
    readRecordReply answer = some record → held record
  created : ∀ fromUid toUid content clientMsgId now answer,
    allowed (.redis (.evalCreateMessage fromUid toUid content clientMsgId now))
      answer → (readCreateReply answer).created = true →
    held (readCreateReply answer).record
  delivered : ∀ record now, held record → record.status ≠ .acked →
    ¬target (.redis (.evalMsgStateScript .markDelivered record.msgId now))
  pending : ∀ record now, held record → record.status ≠ .acked →
    Unreachable allowed record.toUid →
    ¬target (.redis (.evalMsgStateScript .markPending record.msgId now))
  failed : ∀ record now, held record → record.status ≠ .acked →
    ¬target (.redis (.evalMsgStateScript .markFailed record.msgId now))

section Others

variable {allowed : (command : Command) → command.Answer → Prop}
  {target : Command → Prop} (h : OnlyMarks target)

include h

/-- A command that is not a mark. -/
theorem OnlyMarks.avoids_perform {command : Command}
    (hcommand : ∀ script msgId now,
      command ≠ .redis (.evalMsgStateScript script msgId now)) :
    Avoids allowed target (allowed command) (perform command : Handler _) := by
  apply Program.avoids_perform
  intro htarget
  obtain ⟨script, msgId, now, heq⟩ := h command htarget
  exact hcommand script msgId now heq

/-- A command that is not a mark and whose answer does not matter. -/
theorem OnlyMarks.avoids_plain {command : Command}
    (hcommand : ∀ script msgId now,
      command ≠ .redis (.evalMsgStateScript script msgId now)) :
    Avoids allowed target (fun _ => True) (perform command : Handler _) :=
  (h.avoids_perform hcommand).weaken fun _ _ => trivial

theorem OnlyMarks.avoids_nowMs :
    Avoids allowed target (fun _ => True) Handler.nowMs :=
  h.avoids_plain (by intro _ _ _ heq; cases heq)

theorem OnlyMarks.avoids_sendEnvelope (conn : Conn) (envelope : Envelope) :
    Avoids allowed target (fun _ => True) (sendEnvelope conn envelope) :=
  h.avoids_plain (by intro _ _ _ heq; cases heq)

theorem OnlyMarks.avoids_createRecordPush (record : MessageRecord)
    (history : Bool) :
    Avoids allowed target (fun _ => True)
      (createRecordPush record history) := by
  apply h.avoids_nowMs.bind
  intro now _
  by_cases hstamp : record.createdAtMs = 0
  · rw [if_pos hstamp]
    apply h.avoids_nowMs.bind
    intro stamp _
    exact avoids_done.mpr trivial
  · rw [if_neg hstamp]
    exact avoids_done.mpr trivial

theorem OnlyMarks.avoids_createAck (seq msgId : UInt64) (ok : Bool)
    (reason : Bytes) :
    Avoids allowed target (fun _ => True)
      (createAck seq msgId ok reason : Handler _) := by
  apply h.avoids_nowMs.bind
  intro now _
  exact avoids_done.mpr trivial

theorem OnlyMarks.avoids_sendErrorAck (conn : Conn) (seq : UInt64)
    (reason : Bytes) :
    Avoids allowed target (fun _ => True) (sendErrorAck conn seq reason) := by
  apply (h.avoids_createAck seq 0 false reason).bind
  intro envelope _
  exact h.avoids_sendEnvelope conn envelope

theorem OnlyMarks.avoids_handleAck (conn : Conn) (envelope : Envelope) :
    Avoids allowed target (fun _ => True) (handleAck conn envelope) := by
  rw [handleAck]
  split
  · exact avoids_done.mpr trivial
  · next ack _ =>
      split
      · exact avoids_done.mpr trivial
      · apply (h.avoids_plain (by intro _ _ _ heq; cases heq)).bind
        intro uid _
        split
        · exact avoids_done.mpr trivial
        · have hmark : Avoids allowed target (fun _ => True)
              (markAcked ack.msgId uid : Handler _) := by
            apply h.avoids_nowMs.bind
            intro now _
            apply (h.avoids_plain (by intro _ _ _ heq; cases heq)).bind
            intro _ _
            exact avoids_done.mpr trivial
          apply hmark.bind
          intro _ _
          exact avoids_done.mpr trivial

end Others

section Rule

variable {allowed : (command : Command) → command.Answer → Prop}
  {target : Command → Prop} {held : MessageRecord → Prop}
  (h : MarkRule allowed target held)

include h

/-! ## Reading -/

theorem MarkRule.avoids_fetchRecord (msgId : UInt64) :
    Avoids allowed target (fun o => ∀ record ∈ o, held record)
      (fetchRecord msgId : Handler _) := by
  simp only [fetchRecord]
  split
  · apply avoids_done.mpr
    intro record hrecord
    cases hrecord
  · apply (h.onlyMarks.avoids_perform (by intro _ _ _ heq; cases heq)).bind
    intro answer hanswer
    apply avoids_done.mpr
    intro record hrecord
    exact h.fetched msgId answer record hanswer hrecord

theorem MarkRule.avoids_fetchElement (keep : MessageRecord → Bool)
    (element : Reply) :
    Avoids allowed target
      (fun o => ∀ record ∈ o, held record ∧ keep record = true)
      (fetchElement keep element : Handler _) := by
  simp only [fetchElement]
  split
  · apply avoids_done.mpr
    intro record hrecord
    cases hrecord
  · apply (h.avoids_fetchRecord _).bind
    intro o ho
    apply avoids_done.mpr
    intro record hrecord
    rw [Option.mem_def, Option.filter_eq_some_iff] at hrecord
    exact ⟨ho record hrecord.1, hrecord.2⟩

theorem MarkRule.avoids_collect (keep : MessageRecord → Bool)
    (elements : List Reply) :
    Avoids allowed target
      (fun l => ∀ record ∈ l, held record ∧ keep record = true)
      (collect elements (fetchElement keep) : Handler _) :=
  Program.avoids_collect (fun record => held record ∧ keep record = true)
    fun element _ => h.avoids_fetchElement keep element

theorem MarkRule.avoids_getPendingMessages (uid : UInt64) :
    Avoids allowed target (fun l => ∀ record ∈ l, held record)
      (getPendingMessages uid : Handler _) := by
  apply (h.onlyMarks.avoids_plain (by intro _ _ _ heq; cases heq)).bind
  intro reply _
  apply (h.avoids_collect _ _).weaken
  intro l hl record hrecord
  exact (hl record hrecord).1

theorem MarkRule.avoids_getRecentMessages (uid limit : UInt64) :
    Avoids allowed target (fun _ => True)
      (getRecentMessages uid limit : Handler _) := by
  simp only [getRecentMessages]
  split
  · exact avoids_done.mpr trivial
  · apply (h.onlyMarks.avoids_plain (by intro _ _ _ heq; cases heq)).bind
    intro reply _
    apply (h.avoids_collect _ _).bind
    intro l _
    exact avoids_done.mpr trivial

/-- Only delivered messages are overdue. -/
theorem MarkRule.avoids_getTimeoutDeliveredMessages (now timeout : UInt64) :
    Avoids allowed target
      (fun l => ∀ record ∈ l, held record ∧ record.status = .delivered)
      (getTimeoutDeliveredMessages now timeout : Handler _) := by
  apply (h.onlyMarks.avoids_plain (by intro _ _ _ heq; cases heq)).bind
  intro reply _
  apply (h.avoids_collect _ _).weaken
  intro l hl record hrecord
  obtain ⟨hheld, hkeep⟩ := hl record hrecord
  simp only [Bool.and_eq_true, decide_eq_true_eq] at hkeep
  exact ⟨hheld, hkeep.1.1.1⟩

/-! ## Delivery -/

/-- No target was found only if the user can be unreachable. -/
theorem MarkRule.avoids_onlineTarget (uid : UInt64) :
    Avoids allowed target (fun o => o = none → Unreachable allowed uid)
      (onlineTarget uid) := by
  apply (h.onlyMarks.avoids_perform (by intro _ _ _ heq; cases heq)).bind
  intro answer hanswer
  rcases answer with _ | conn
  · apply avoids_done.mpr
    intro _
    exact .inl hanswer
  · apply (h.onlyMarks.avoids_perform (by intro _ _ _ heq; cases heq)).bind
    intro connected hconnected
    apply avoids_done.mpr
    intro hnone
    rcases hcase : (connected : Bool) with _ | _
    · rw [hcase] at hconnected
      exact .inr ⟨conn, hanswer, hconnected⟩
    · rw [hcase] at hnone
      cases hnone

theorem MarkRule.avoids_evalMsgState {script : MsgStateScript} {msgId : UInt64}
    (hmark : ∀ now,
      ¬target (.redis (.evalMsgStateScript script msgId now))) :
    Avoids allowed target (fun _ => True)
      (evalMsgState script msgId : Handler _) := by
  apply h.onlyMarks.avoids_nowMs.bind
  intro now _
  apply (Program.avoids_perform (hmark now)).bind
  intro reply _
  exact avoids_done.mpr trivial

theorem MarkRule.avoids_pushAndMark (conn : Conn)
    {record : MessageRecord} (hrecord : held record)
    (hstatus : record.status ≠ .acked) :
    Avoids allowed target (fun _ => True) (pushAndMark conn record) := by
  apply (h.onlyMarks.avoids_createRecordPush record false).bind
  intro push _
  apply (h.onlyMarks.avoids_sendEnvelope conn push).bind
  intro _ _
  apply (h.avoids_evalMsgState fun now =>
    h.delivered record now hrecord hstatus).bind
  intro _ _
  exact avoids_done.mpr trivial

theorem MarkRule.avoids_tryDeliverMessage {record : MessageRecord}
    (hrecord : held record) :
    Avoids allowed target (fun _ => True) (tryDeliverMessage record) := by
  rw [tryDeliverMessage]
  split
  · exact avoids_done.mpr trivial
  · next hstatus =>
      have hacked : record.status ≠ .acked := fun heq => hstatus (.inl heq)
      apply (h.avoids_onlineTarget record.toUid).bind
      intro o ho
      rcases o with _ | conn
      · apply (h.avoids_evalMsgState fun now =>
          h.pending record now hrecord hacked (ho rfl)).bind
        intro _ _
        exact avoids_done.mpr trivial
      · exact h.avoids_pushAndMark conn hrecord hacked

theorem MarkRule.avoids_retryDeliverMessage {record : MessageRecord}
    (hrecord : held record) :
    Avoids allowed target (fun _ => True) (retryDeliverMessage record) := by
  rw [retryDeliverMessage]
  split
  · exact avoids_done.mpr trivial
  · next hstatus =>
      have hacked : record.status ≠ .acked := fun heq => hstatus (.inl heq)
      apply (h.avoids_onlineTarget record.toUid).bind
      intro o ho
      rcases o with _ | conn
      · apply (h.avoids_evalMsgState fun now =>
          h.pending record now hrecord hacked (ho rfl)).bind
        intro _ _
        exact avoids_done.mpr trivial
      · have hincrement : Avoids allowed target (fun _ => True)
            (incrementRetryCount record.msgId : Handler _) := by
          apply (h.onlyMarks.avoids_plain (by intro _ _ _ heq; cases heq)).bind
          intro _ _
          exact avoids_done.mpr trivial
        apply hincrement.bind
        intro _ _
        exact h.avoids_pushAndMark conn hrecord hacked

theorem MarkRule.avoids_deliverPendingMessages (uid : UInt64) :
    Avoids allowed target (fun _ => True) (deliverPendingMessages uid) := by
  apply (h.avoids_getPendingMessages uid).bind
  intro records hrecords
  have hloop : Avoids allowed target (fun _ => True)
      (forEach records fun record => do
        let _ ← tryDeliverMessage record
        pure ()) := by
    apply avoids_forEach
    intro record hrecord
    apply (h.avoids_tryDeliverMessage (hrecords record hrecord)).bind
    intro _ _
    exact avoids_done.mpr trivial
  apply hloop.bind
  intro _ _
  exact avoids_done.mpr trivial

theorem MarkRule.avoids_sendRecentMessages (uid limit : UInt64) :
    Avoids allowed target (fun _ => True) (sendRecentMessages uid limit) := by
  apply (h.avoids_getRecentMessages uid limit).bind
  intro records _
  apply (h.avoids_onlineTarget uid).bind
  intro o _
  rcases o with _ | conn
  · exact avoids_done.mpr trivial
  · apply avoids_forEach
    intro record _
    apply (h.onlyMarks.avoids_createRecordPush record true).bind
    intro push _
    exact h.onlyMarks.avoids_sendEnvelope conn push

theorem MarkRule.avoids_deliverLoginMessages (uid : UInt64) :
    Avoids allowed target (fun _ => True) (deliverLoginMessages uid) := by
  apply (h.avoids_deliverPendingMessages uid).bind
  intro delivered _
  split
  · exact avoids_done.mpr trivial
  · exact h.avoids_sendRecentMessages uid _

theorem MarkRule.avoids_deliveryScan :
    Avoids allowed target (fun _ => True) deliveryScan := by
  apply h.onlyMarks.avoids_nowMs.bind
  intro now _
  apply (h.avoids_getTimeoutDeliveredMessages now _).bind
  intro records hrecords
  apply avoids_forEach
  intro record hrecord
  obtain ⟨hheld, hstatus⟩ := hrecords record hrecord
  have hacked : record.status ≠ .acked := by
    rw [hstatus]
    decide
  split
  · apply (h.avoids_evalMsgState fun now =>
      h.failed record now hheld hacked).bind
    intro _ _
    exact avoids_done.mpr trivial
  · apply (h.avoids_retryDeliverMessage hheld).bind
    intro _ _
    exact avoids_done.mpr trivial

/-! ## Events -/

theorem MarkRule.avoids_handleLogin (conn : Conn) (envelope : Envelope) :
    Avoids allowed target (fun _ => True) (handleLogin conn envelope) := by
  have hbind : ∀ uid, Avoids allowed target (fun _ => True)
      (bindLogin conn uid) := by
    intro uid
    rw [bindLogin]
    split
    · exact avoids_done.mpr trivial
    · apply (h.onlyMarks.avoids_plain (by intro _ _ _ heq; cases heq)).bind
      intro _ _
      exact avoids_done.mpr trivial
  apply (hbind _).bind
  intro result _
  have hresponse : Avoids allowed target (fun _ => True)
      (createLoginResponse envelope.seq result.1 result.2 : Handler _) := by
    apply h.onlyMarks.avoids_nowMs.bind
    intro now _
    exact avoids_done.mpr trivial
  apply hresponse.bind
  intro response _
  apply (h.onlyMarks.avoids_sendEnvelope conn response).bind
  intro _ _
  split
  · exact h.avoids_deliverLoginMessages _
  · exact avoids_done.mpr trivial

theorem MarkRule.avoids_storeAndDeliver (conn : Conn) (seq : UInt64)
    (request : ChatRequest) :
    Avoids allowed target (fun _ => True)
      (storeAndDeliver conn seq request) := by
  have hcreate : Avoids allowed target
      (fun result => result.created = true → held result.record)
      (createMessage request.fromUid request.toUid request.content
        request.clientMsgId : Handler _) := by
    apply h.onlyMarks.avoids_nowMs.bind
    intro now _
    apply (h.onlyMarks.avoids_perform (by intro _ _ _ heq; cases heq)).bind
    intro answer hanswer
    apply avoids_done.mpr
    intro hcreated
    exact h.created _ _ _ _ now answer hanswer hcreated
  apply hcreate.bind
  intro result hresult
  split
  · exact h.onlyMarks.avoids_sendErrorAck conn seq _
  · split
    · apply (h.onlyMarks.avoids_createAck _ _ _ _).bind
      intro ack _
      exact h.onlyMarks.avoids_sendEnvelope conn ack
    · next hcreated =>
        rw [Bool.not_eq_false] at hcreated
        apply (h.avoids_tryDeliverMessage (hresult hcreated)).bind
        intro _ _
        apply (h.onlyMarks.avoids_createAck _ _ _ _).bind
        intro ack _
        exact h.onlyMarks.avoids_sendEnvelope conn ack

theorem MarkRule.avoids_handleChat (conn : Conn) (envelope : Envelope) :
    Avoids allowed target (fun _ => True) (handleChat conn envelope) := by
  rw [handleChat]
  split
  · exact h.onlyMarks.avoids_sendErrorAck conn _ _
  · apply (h.onlyMarks.avoids_plain (by intro _ _ _ heq; cases heq)).bind
    intro uid _
    split
    · exact h.onlyMarks.avoids_sendErrorAck conn _ _
    · split
      · exact h.onlyMarks.avoids_sendErrorAck conn _ _
      · exact h.avoids_storeAndDeliver conn _ _

/-- No handler makes a forbidden mark. -/
theorem MarkRule.avoids_handle (event : ServerEvent) :
    Avoids allowed target (fun _ => True) (handle event) := by
  rcases event with ⟨conn, envelope⟩ | conn
  · simp only [handle]
    split
    · exact h.avoids_handleLogin conn envelope
    · exact h.avoids_handleChat conn envelope
    · exact h.onlyMarks.avoids_handleAck conn envelope
    · exact h.onlyMarks.avoids_plain (by intro _ _ _ heq; cases heq)
    · exact h.onlyMarks.avoids_sendErrorAck conn _ _
  · exact h.onlyMarks.avoids_plain (by intro _ _ _ heq; cases heq)

end Rule

end ReliableDelivery
