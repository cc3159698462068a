import ReliableDelivery.Server.System

/-!
# Who issues which command

Some commands have one place in the code: only a login binds a user, and only
the delivery thread counts a retry.  The helpers that several handlers share
issue none of them.
-/

namespace ReliableDelivery

open Decimal Redis MessageStore EnvelopeFactory Program TransitionSystem

/-- Commands with a place of their own. -/
def Rare : Command → Prop
  | .bindUser _ _ => True
  | .redis (.evalIncrementRetryScript _) => True
  | .redis (.zrangebyscoreTimeout _) => True
  | .redis (.evalMsgStateScript .markFailed _ _) => True
  | _ => False

/-- The program issues no such command. -/
def RareFree {α : Type} (p : Handler α) : Prop :=
  Avoids (fun _ _ => True) Rare (fun _ => True) p

section Combinators

variable {α β : Type}

theorem rareFree_done (a : α) : RareFree (.done a : Handler α) :=
  avoids_done.mpr trivial

theorem RareFree.bind {p : Handler α} {f : α → Handler β} (hp : RareFree p)
    (hf : ∀ a, RareFree (f a)) : RareFree (p.bind f) :=
  Avoids.bind hp fun a _ => hf a

theorem rareFree_perform {command : Command} (h : ¬Rare command) :
    RareFree (perform command) :=
  (Program.avoids_perform h).weaken fun _ _ => trivial

theorem rareFree_forEach {xs : List β} {body : β → Handler Unit}
    (hbody : ∀ x, RareFree (body x)) : RareFree (forEach xs body) :=
  avoids_forEach fun x _ => hbody x

theorem rareFree_collect {xs : List β} {query : β → Handler (Option α)}
    (hquery : ∀ x, RareFree (query x)) : RareFree (collect xs query) := by
  have hall : Avoids (fun _ _ => True) Rare
      (fun l => ∀ a ∈ l, True) (collect xs query) :=
    avoids_collect (fun _ => True) fun x _ =>
      (hquery x).weaken fun _ _ _ _ => trivial
  exact hall.weaken fun _ _ => trivial

end Combinators

/-! ## Helpers -/

theorem rareFree_nowMs : RareFree Handler.nowMs :=
  rareFree_perform id

theorem rareFree_sendEnvelope (conn : Conn) (envelope : Envelope) :
    RareFree (sendEnvelope conn envelope) :=
  rareFree_perform id

theorem rareFree_createRecordPush (record : MessageRecord) (history : Bool) :
    RareFree (createRecordPush record history) := by
  apply rareFree_nowMs.bind
  intro now
  by_cases hstamp : record.createdAtMs = 0
  · rw [if_pos hstamp]
    exact rareFree_nowMs.bind fun _ => rareFree_done _
  · rw [if_neg hstamp]
    exact rareFree_done _

theorem rareFree_createAck (seq msgId : UInt64) (ok : Bool) (reason : Bytes) :
    RareFree (createAck seq msgId ok reason : Handler _) :=
  rareFree_nowMs.bind fun _ => rareFree_done _

theorem rareFree_sendErrorAck (conn : Conn) (seq : UInt64) (reason : Bytes) :
    RareFree (sendErrorAck conn seq reason) :=
  (rareFree_createAck seq 0 false reason).bind fun ack =>
    rareFree_sendEnvelope conn ack

theorem rareFree_fetchElement (keep : MessageRecord → Bool) (element : Reply) :
    RareFree (fetchElement keep element : Handler _) := by
  rw [fetchElement]
  split
  · exact rareFree_done _
  · next msgId _ =>
      have hfetch : RareFree (fetchRecord msgId : Handler _) := by
        rw [fetchRecord]
        split
        · exact rareFree_done _
        · exact (rareFree_perform id).bind fun _ => rareFree_done _
      exact hfetch.bind fun _ => rareFree_done _

theorem rareFree_getPendingMessages (uid : UInt64) :
    RareFree (getPendingMessages uid : Handler _) :=
  (rareFree_perform id).bind fun _ =>
    rareFree_collect fun element => rareFree_fetchElement _ element

theorem rareFree_getRecentMessages (uid limit : UInt64) :
    RareFree (getRecentMessages uid limit : Handler _) := by
  rw [getRecentMessages]
  split
  · exact rareFree_done _
  · apply (rareFree_perform id).bind
    intro reply
    have hcollect := @rareFree_collect _ _ (replyElements reply) _ fun element =>
      rareFree_fetchElement
        (fun record => record.fromUid = uid || record.toUid = uid) element
    exact hcollect.bind fun _ => rareFree_done _

theorem rareFree_onlineTarget (uid : UInt64) : RareFree (onlineTarget uid) := by
  apply (rareFree_perform id).bind
  intro target
  rcases target with _ | conn
  · exact rareFree_done _
  · exact (rareFree_perform id).bind fun _ => rareFree_done _

theorem rareFree_evalMsgState {script : MsgStateScript} (msgId : UInt64)
    (h : script ≠ .markFailed) :
    RareFree (evalMsgState script msgId : Handler _) := by
  apply rareFree_nowMs.bind
  intro now
  have hscript : RareFree
      (perform (.redis (.evalMsgStateScript script msgId now))) := by
    apply rareFree_perform
    cases script with
    | markFailed => exact absurd rfl h
    | _ => exact id
  exact hscript.bind fun _ => rareFree_done _

theorem rareFree_pushAndMark (conn : Conn) (record : MessageRecord) :
    RareFree (pushAndMark conn record) := by
  apply (rareFree_createRecordPush record false).bind
  intro push
  apply (rareFree_sendEnvelope conn push).bind
  intro _
  exact (rareFree_evalMsgState record.msgId (by decide)).bind fun _ =>
    rareFree_done _

theorem rareFree_tryDeliverMessage (record : MessageRecord) :
    RareFree (tryDeliverMessage record) := by
  rw [tryDeliverMessage]
  split
  · exact rareFree_done _
  · apply (rareFree_onlineTarget record.toUid).bind
    intro target
    rcases target with _ | conn
    · exact (rareFree_evalMsgState record.msgId (by decide)).bind fun _ =>
        rareFree_done _
    · exact rareFree_pushAndMark conn record

/-! ## Handlers -/

theorem rareFree_deliverLoginMessages (uid : UInt64) :
    RareFree (deliverLoginMessages uid) := by
  have hpending : RareFree (deliverPendingMessages uid) := by
    apply (rareFree_getPendingMessages uid).bind
    intro records
    have hloop : RareFree (forEach records fun record => do
        let _ ← tryDeliverMessage record
        pure ()) :=
      rareFree_forEach fun record =>
        (rareFree_tryDeliverMessage record).bind fun _ => rareFree_done _
    exact hloop.bind fun _ => rareFree_done _
  have hrecent : RareFree
      (sendRecentMessages uid kLoginRecentMessageLimit) := by
    apply (rareFree_getRecentMessages uid _).bind
    intro records
    apply (rareFree_onlineTarget uid).bind
    intro target
    rcases target with _ | conn
    · exact rareFree_done _
    · exact rareFree_forEach fun record =>
        (rareFree_createRecordPush record true).bind fun push =>
          rareFree_sendEnvelope conn push
  apply hpending.bind
  intro delivered
  split
  · exact rareFree_done _
  · exact hrecent

/-- What a login does once it has an answer for the user. -/
def answerLogin (conn : Conn) (seq uid : UInt64) (result : Bool × Bytes) :
    Handler Unit := do
  let response ← createLoginResponse seq result.1 result.2
  sendEnvelope conn response
  if result.1 then deliverLoginMessages uid else pure ()

theorem rareFree_answerLogin (conn : Conn) (seq uid : UInt64)
    (result : Bool × Bytes) : RareFree (answerLogin conn seq uid result) := by
  apply RareFree.bind (rareFree_nowMs.bind fun _ => rareFree_done _)
  intro response
  apply (rareFree_sendEnvelope conn response).bind
  intro _
  split
  · exact rareFree_deliverLoginMessages uid
  · exact rareFree_done _

theorem rareFree_handleChat (conn : Conn) (envelope : Envelope) :
    RareFree (handleChat conn envelope) := by
  have hstore : ∀ request,
      RareFree (storeAndDeliver conn envelope.seq request) := by
    intro request
    have hcreate : RareFree (createMessage request.fromUid request.toUid
        request.content request.clientMsgId : Handler _) :=
      rareFree_nowMs.bind fun _ =>
        (rareFree_perform id).bind fun _ => rareFree_done _
    apply hcreate.bind
    intro result
    split
    · exact rareFree_sendErrorAck conn _ _
    · split
      · exact (rareFree_createAck _ _ _ _).bind fun ack =>
          rareFree_sendEnvelope conn ack
      · apply (rareFree_tryDeliverMessage _).bind
        intro _
        exact (rareFree_createAck _ _ _ _).bind fun ack =>
          rareFree_sendEnvelope conn ack
  rw [handleChat]
  split
  · exact rareFree_sendErrorAck conn _ _
  · apply (rareFree_perform id).bind
    intro uid
    split
    · exact rareFree_sendErrorAck conn _ _
    · split
      · exact rareFree_sendErrorAck conn _ _
      · exact hstore _

theorem rareFree_handleAck (conn : Conn) (envelope : Envelope) :
    RareFree (handleAck conn envelope) := by
  rw [handleAck]
  split
  · exact rareFree_done _
  · next ack _ =>
      split
      · exact rareFree_done _
      · apply (rareFree_perform id).bind
        intro uid
        split
        · exact rareFree_done _
        · have hmark : RareFree (markAcked ack.msgId uid : Handler _) :=
            rareFree_nowMs.bind fun _ =>
              (rareFree_perform id).bind fun _ => rareFree_done _
          exact hmark.bind fun _ => rareFree_done _

/-- The user a login request names. -/
def Envelope.loginUid (envelope : Envelope) : UInt64 :=
  (envelope.loginReq?.getD {}).uid

/-- The login handler binds first and answers afterwards. -/
theorem handleLogin_eq (conn : Conn) {envelope : Envelope}
    (huid : envelope.loginUid ≠ 0) :
    handleLogin conn envelope =
      .call (.bindUser conn envelope.loginUid) fun bound =>
        answerLogin conn envelope.seq envelope.loginUid
          (if bound then (true, []) else (false, literal "bind user failed")) := by
  rw [Envelope.loginUid] at huid
  rw [handleLogin, bindLogin, if_neg huid]
  rfl

/-- An event handler is a login that binds its user first, or it issues no rare
command. -/
theorem handle_cases (event : ServerEvent) :
    RareFree (handle event) ∨
      ∃ conn envelope, event = .envelope conn envelope ∧
        envelope.type = .loginReq ∧ envelope.loginUid ≠ 0 ∧
        handle event = handleLogin conn envelope := by
  rcases event with ⟨conn, envelope⟩ | conn
  · simp only [handle]
    split
    · next htype =>
        by_cases huid : envelope.loginUid = 0
        · left
          rw [Envelope.loginUid] at huid
          rw [handleLogin, bindLogin, if_pos huid]
          exact rareFree_answerLogin conn envelope.seq _ _
        · exact .inr ⟨conn, envelope, rfl, htype, huid, rfl⟩
    · exact .inl (rareFree_handleChat conn envelope)
    · exact .inl (rareFree_handleAck conn envelope)
    · exact .inl (rareFree_perform id)
    · exact .inl (rareFree_sendErrorAck conn _ _)
  · exact .inl (rareFree_perform id)

/-- In every run, what an event handler has left to do is its whole program, if
it is a login, or free of rare commands. -/
theorem rareFree_of_running {P : Platform} (e : ServerRun P) {t : Thread}
    {job : Job} {event : ServerEvent} {code : Handler Unit}
    (hjob : job.task = .event event)
    (hrunning : e.state.running t = some (job, code)) :
    RareFree code ∨
      ∃ conn envelope, event = .envelope conn envelope ∧
        envelope.type = .loginReq ∧ envelope.loginUid ≠ 0 ∧
        code = handleLogin conn envelope := by
  refine @ThreadPool.running_induct _ _ _ _ _ _ _ (serverThreads P) job
    (fun code => RareFree code ∨
      ∃ conn envelope, event = .envelope conn envelope ∧
        envelope.type = .loginReq ∧ envelope.loginUid ≠ 0 ∧
        code = handleLogin conn envelope)
    (fun _ _ => True) ?_ ?_ e t code hrunning fun _ _ _ _ _ => trivial
  · have hcode : (serverThreads P).code job = handle event := by
      change job.code = handle event
      rw [Job.code, hjob]
    rw [hcode]
    exact handle_cases event
  · rintro command next answer - (hfree | ⟨conn, envelope, -, -, huid, heq⟩)
    · exact .inl ((avoids_call.mp hfree).2 answer trivial)
    · left
      rw [handleLogin_eq conn huid] at heq
      cases heq
      exact rareFree_answerLogin conn _ _ _

end ReliableDelivery
