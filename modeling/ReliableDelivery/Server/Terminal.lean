import ReliableDelivery.Server.Identity
import ReliableDelivery.Server.Marks

/-!
# Acknowledged messages

`Acked` is meant to be final, but the scripts that mark a message delivered,
pending or failed do not look at the status they overwrite.  A delivery that
read its record before the acknowledgement can undo it.  This module shows that
nothing else can: if no running handler still holds such a record when the
message is acknowledged, the message stays acknowledged.
-/

namespace ReliableDelivery

open Decimal Redis MessageStore TransitionSystem Program

variable {P : Platform}

/-- A mark on the message that is not an acknowledgement. -/
def MarksMessage (id : UInt64) (command : Command) : Prop :=
  ∃ script now, command = .redis (.evalMsgStateScript script id now)

/-- The answers that a thread can get about an acknowledged message: its record
reads acknowledged, and it is not created anew. -/
def SeesAcked (id : UInt64) : (command : Command) → command.Answer → Prop
  | .redis (.hmgetRecord _), answer => ∀ record,
      readRecordReply answer = some record → record.msgId = id →
        record.status = .acked
  | .redis (.evalCreateMessage _ _ _ _ _), answer =>
      (readCreateReply answer).created = true →
        (readCreateReply answer).record.msgId ≠ id
  | _, _ => True

/-- The rest of the program makes no mark on the message, if it sees it
acknowledged from here on.  This fails exactly for a delivery that holds an
older record of the message and has not yet made its mark. -/
def LeavesAlone (id : UInt64) (code : Handler Unit) : Prop :=
  Avoids (SeesAcked id) (MarksMessage id) (fun _ => True) code

theorem markRule_acked (id : UInt64) :
    MarkRule (SeesAcked id) (MarksMessage id)
      (fun record => record.msgId = id → record.status = .acked) where
  onlyMarks := by
    rintro command ⟨script, now, rfl⟩
    exact ⟨script, id, now, rfl⟩
  fetched := by
    intro msgId answer record hallowed hread
    exact hallowed record hread
  created := by
    intro _ _ _ _ _ answer hallowed hcreated hid
    exact absurd hid (hallowed hcreated)
  delivered := by
    rintro record now hheld hstatus ⟨script, now', heq⟩
    cases heq
    exact hstatus (hheld rfl)
  pending := by
    rintro record now hheld hstatus - ⟨script, now', heq⟩
    cases heq
    exact hstatus (hheld rfl)
  failed := by
    rintro record now hheld hstatus ⟨script, now', heq⟩
    cases heq
    exact hstatus (hheld rfl)

/-- Whoever starts afterwards leaves the message alone. -/
theorem leavesAlone_code (id : UInt64) (job : Job) :
    LeavesAlone id job.code := by
  rw [Job.code]
  split
  · exact (markRule_acked id).avoids_handle _
  · exact (markRule_acked id).avoids_deliveryScan

/-! ## Steps -/

/-- While the message is acknowledged, threads see it so. -/
theorem seesAcked_of_next {e e' : ServerRun P} {t : Thread} {job : Job}
    {command : Command} {answer : command.Answer} {id : UInt64} {m : Message}
    (hnext : Execution.Next e (.execute t job command answer) e')
    (hm : e.ledger.find id = some m) (hacked : m.status = .acked) :
    SeesAcked id command answer := by
  have hstep : ServerStep P e.state (.execute t job command answer)
      e'.state := hnext.1
  obtain ⟨-, s', -, heffect, -⟩ := hstep.execute_inv
  unfold SeesAcked
  split
  · next msgId answer =>
      intro record hread hid
      obtain ⟨reply, hrun, hreply⟩ := run_hmgetRecord e.represents msgId
      cases heffect with
      | redisNotExecuted _ => cases hread
      | redisReplyLost _ => cases hread
      | redisAnswered _ =>
          simp only [StoreDb.run, hrun, hreply] at hread
          obtain ⟨m', hm', rfl⟩ := Option.map_eq_some_iff.mp hread
          have hsame : msgId = id := hid
          rw [hsame, hm, Option.some.injEq] at hm'
          rw [← hm']
          exact hacked
  · next fromUid toUid content clientMsgId now answer =>
      intro hcreated hid
      cases heffect with
      | redisNotExecuted _ => cases hcreated
      | redisReplyLost _ => cases hcreated
      | redisAnswered _ =>
          rcases run_create e.represents fromUid toUid content clientMsgId now
            with ⟨id', m', reply, -, -, hrun, hreply⟩ |
              ⟨-, -, reply, db', hrun, hreply, -⟩ | ⟨-, -, reply, hrun, hreply⟩
          · simp only [StoreDb.run, hrun, hreply] at hcreated
            cases hcreated
          · simp only [StoreDb.run, hrun, hreply] at hid
            have hnew : e.ledger.nextId = id := hid
            rw [← hnew, e.ledger.find_nextId] at hm
            cases hm
          · simp only [StoreDb.run, hrun, hreply] at hcreated
            cases hcreated
  · trivial

/-- Acknowledged, and nobody is about to undo it. -/
def Settled (e : ServerRun P) (id : UInt64) : Prop :=
  (∃ m, e.ledger.find id = some m ∧ m.status = .acked) ∧
    ∀ t job code, e.state.running t = some (job, code) → LeavesAlone id code

/-- What the threads run after a step, when they see the message acknowledged
in that step. -/
theorem leavesAlone_next {e e' : ServerRun P} {l : ServerLabel} {id : UInt64}
    (hrunning : ∀ t job code, e.state.running t = some (job, code) →
      LeavesAlone id code)
    (hsees : ∀ t job command answer, l = .execute t job command answer →
      SeesAcked id command answer)
    (hnext : Execution.Next e l e') (t : Thread) (job : Job)
    (code : Handler Unit) (hcode : e'.state.running t = some (job, code)) :
    LeavesAlone id code := by
  have hstep : ServerStep P e.state l e'.state := hnext.1
  rcases hstep.running hcode with
    ⟨hsame, -⟩ | ⟨rfl, -⟩ | ⟨command, next, answer, hbefore, hl, rfl⟩
  · exact hrunning t job code hsame
  · exact leavesAlone_code id job
  · have hcall := avoids_call.mp (hrunning t job _ hbefore)
    exact hcall.2 answer (hsees t job command answer hl)

theorem Settled.next {e e' : ServerRun P} {l : ServerLabel} {id : UInt64}
    (h : Settled e id) (hnext : Execution.Next e l e') : Settled e' id := by
  obtain ⟨⟨m, hm, hacked⟩, hrunning⟩ := h
  have hstep : ServerStep P e.state l e'.state := hnext.1
  refine ⟨?_, leavesAlone_next hrunning ?_ hnext⟩
  · obtain ⟨m', hm', -, -⟩ := (ServerRun.extends_later hnext.later).2 id m hm
    refine ⟨m', hm', ?_⟩
    rcases ServerRun.ledger_next hnext with
      hledger | ⟨t, job, request, answer, rfl, hledger⟩
    · rw [hledger, hm, Option.some.injEq] at hm'
      rw [← hm']
      exact hacked
    · obtain ⟨next, -, hcall, -, -⟩ := hstep.execute_inv
      have hmark := (avoids_call.mp (hrunning t job _ hcall)).1
      rw [hledger] at hm'
      rcases Ledger.find_after_cases hm' with
        hold | ⟨_, _, _, _, _, -, -, hid, -⟩ | ⟨m₀, script, now, rfl, -, -⟩ |
        ⟨m₀, now, -, -, rfl⟩ | ⟨m₀, -, hold, rfl⟩
      · rw [hm, Option.some.injEq] at hold
        rw [← hold]
        exact hacked
      · rw [hid, e.ledger.find_nextId] at hm
        cases hm
      · exact absurd ⟨script, now, rfl⟩ hmark
      · rfl
      · rw [hm, Option.some.injEq] at hold
        rw [← hold]
        exact hacked
  · rintro t job command answer rfl
    exact seesAcked_of_next hnext hm hacked

/-- An acknowledgement at a moment when nobody is about to undo it. -/
theorem settled_of_markAcked {e e' : ServerRun P} {t : Thread} {job : Job}
    {id uid now : UInt64} {answer : Option Reply}
    (hmark : Execution.Next e
      (.execute t job (.redis (.evalMarkAckedScript id uid now)) answer) e')
    (hacked : ∃ m, e'.ledger.find id = some m ∧ m.status = .acked)
    (hquiet : ∀ t' job' code, e.state.running t' = some (job', code) →
      LeavesAlone id code) : Settled e' id := by
  refine ⟨hacked, leavesAlone_next hquiet ?_ hmark⟩
  intro t' job' command answer' hl
  cases hl
  trivial

/-! ## Runs -/

/-- Acknowledged for good.  If, at the moment the acknowledgement is stored,
every running handler leaves the message alone from there on, then the message
stays acknowledged and out of both delivery indexes for the rest of the run. -/
theorem acked_is_final {e₁ e₂ e₃ : ServerRun P} {t : Thread} {job : Job}
    {id uid now : UInt64} {answer : Option Reply}
    (hmark : Execution.Next e₁
      (.execute t job (.redis (.evalMarkAckedScript id uid now)) answer) e₂)
    (hacked : fieldOf e₂.state.store.db (makeMessageKey id)
      (literal "status") = some (literal "Acked"))
    (hquiet : ∀ t' job' code, e₁.state.running t' = some (job', code) →
      LeavesAlone id code)
    (hlater : Execution.Later e₂ e₃) :
    fieldOf e₃.state.store.db (makeMessageKey id) (literal "status") =
        some (literal "Acked") ∧
      (∀ toUid, scoreOf e₃.state.store.db (makePendingKey toUid) (toText id) =
        none) ∧
      scoreOf e₃.state.store.db kRedisDeliveredTimeoutKey (toText id) =
        none := by
  have hsettled : Settled e₂ id := settled_of_markAcked hmark
    ((e₂.represents.status_iff id .acked).mp hacked) hquiet
  obtain ⟨⟨m, hm, hstatus⟩, -⟩ : Settled e₃ id :=
    hlater.preserves (P := fun e => Settled e id) hsettled
      fun _ _ _ h hnext => h.next hnext
  refine ⟨(e₃.represents.status_iff id .acked).mpr ⟨m, hm, hstatus⟩, ?_, ?_⟩
  · intro toUid
    rw [Option.eq_none_iff_forall_ne_some]
    intro score hscore
    obtain ⟨id', m', hid, hm', hpending⟩ :=
      ((e₃.represents.pending toUid).scoreOf_iff _ _).mp hscore
    rw [← toText_inj.mp hid, hm, Option.some.injEq] at hm'
    rw [← hm', pendingScore, hstatus, if_neg (by simp)] at hpending
    cases hpending
  · rw [Option.eq_none_iff_forall_ne_some]
    intro score hscore
    obtain ⟨id', m', hid, hm', htimeout⟩ :=
      (e₃.represents.timeout.scoreOf_iff _ _).mp hscore
    rw [← toText_inj.mp hid, hm, Option.some.injEq] at hm'
    rw [← hm', timeoutScore, hstatus, if_neg (by simp)] at htimeout
    cases htimeout

/-- User 1 has written to user 2; the message has been pushed but not yet marked,
and user 2 acknowledges it. -/
def earlyAck : List Choice :=
  twoUsers ++ [.receive 0 (chatFrom 1 2 7 (literal "hi") (literal "a"))] ++
    work 0 7 ++ [.receive 1 (ackOf 1)] ++ work 6 2

/-- The mark that the delivery makes afterwards undoes the acknowledgement. -/
theorem acked_overwritten :
    ¬∀ (e₁ e₂ e₃ : ServerRun wirePlatform) (t : Thread) (job : Job)
        (id uid now : UInt64) (answer : Option Reply),
      Execution.Next e₁ (.execute t job
        (.redis (.evalMarkAckedScript id uid now)) answer) e₂ →
      fieldOf e₂.state.store.db (makeMessageKey id) (literal "status") =
        some (literal "Acked") →
      Execution.Later e₂ e₃ →
      fieldOf e₃.state.store.db (makeMessageKey id) (literal "status") =
          some (literal "Acked") ∧
        (∀ toUid, scoreOf e₃.state.store.db (makePendingKey toUid)
          (toText id) = none) ∧
        scoreOf e₃.state.store.db kRedisDeliveredTimeoutKey (toText id) =
          none := by
  intro hkeeps
  obtain ⟨e₁, h₁, -⟩ := exists_run wirePlatform earlyAck
  have hissues : e₁.state.issues (.worker 6) = some
      (⟨3, .event (.envelope 1 (ackOf 1))⟩,
        .redis (.evalMarkAckedScript 1 2 1000)) := by
    rw [h₁]
    decide +kernel
  obtain ⟨e₂, hnext, h₂, -⟩ := exists_execute 1000 hissues
  have hacked : fieldOf e₂.state.store.db (makeMessageKey 1)
      (literal "status") = some (literal "Acked") := by
    rw [h₂, h₁]
    decide +kernel
  obtain ⟨e₃, hlater, h₃, -⟩ := (serverDriver wirePlatform).exists_follow
    [.call (.worker 0) 1000, .call (.worker 0) 1000] e₂
  have hdelivered : fieldOf e₃.state.store.db (makeMessageKey 1)
      (literal "status") = some (literal "Delivered") := by
    rw [h₃, h₂, h₁]
    decide +kernel
  obtain ⟨hstatus, -⟩ := hkeeps e₁ e₂ e₃ _ _ _ _ _ _ hnext hacked hlater
  rw [hdelivered] at hstatus
  exact absurd hstatus (by decide)

/-- The same message, acknowledged after its delivery is complete. -/
def lateAck : List Choice :=
  twoUsers ++ [.receive 0 (chatFrom 1 2 7 (literal "hi") (literal "a"))] ++
    complete 0 20 ++ [.receive 1 (ackOf 1)] ++ work 6 2

theorem lateAck_jobs (t : Thread) :
    ((serverDriver wirePlatform).follow {} lateAck).jobOf t = none ∨
      ((serverDriver wirePlatform).follow {} lateAck).jobOf t =
        some ⟨3, .event (.envelope 1 (ackOf 1))⟩ := by
  rcases t with i | _
  · revert i
    decide +kernel
  · decide +kernel

theorem acked_is_final_lateAck :
    ∃ (e₁ e₂ : ServerRun wirePlatform) (answer : Option Reply),
      Execution.Next e₁ (.execute (.worker 6)
        ⟨3, .event (.envelope 1 (ackOf 1))⟩
        (.redis (.evalMarkAckedScript 1 2 1000)) answer) e₂ ∧
      ∀ e₃, Execution.Later e₂ e₃ →
        fieldOf e₃.state.store.db (makeMessageKey 1) (literal "status") =
            some (literal "Acked") ∧
          (∀ toUid, scoreOf e₃.state.store.db (makePendingKey toUid)
            (toText 1) = none) ∧
          scoreOf e₃.state.store.db kRedisDeliveredTimeoutKey (toText 1) =
            none := by
  obtain ⟨e₁, h₁, -⟩ := exists_run wirePlatform lateAck
  have hissues : e₁.state.issues (.worker 6) = some
      (⟨3, .event (.envelope 1 (ackOf 1))⟩,
        .redis (.evalMarkAckedScript 1 2 1000)) := by
    rw [h₁]
    decide +kernel
  obtain ⟨e₂, hnext, h₂, -⟩ := exists_execute 1000 hissues
  have hacked : fieldOf e₂.state.store.db (makeMessageKey 1)
      (literal "status") = some (literal "Acked") := by
    rw [h₂, h₁]
    decide +kernel
  have hquiet : ∀ t job code, e₁.state.running t = some (job, code) →
      LeavesAlone 1 code := by
    intro t job code hrunning
    have hjob := ServerState.jobOf_of_running hrunning
    rw [h₁] at hjob
    rcases lateAck_jobs t with hnone | hack
    · rw [hnone] at hjob
      cases hjob
    · rw [hack, Option.some.injEq] at hjob
      subst hjob
      have hcode : Avoids (fun _ _ => True) (MarksMessage 1) (fun _ => True)
          (handleAck 1 (ackOf 1)) :=
        (markRule_acked 1).onlyMarks.avoids_handleAck 1 (ackOf 1)
      exact ((serverThreads wirePlatform).avoids_running hcode e₁ t code
        hrunning fun _ _ _ _ _ => trivial).mono fun _ _ _ => trivial
  exact ⟨e₁, e₂, _, hnext,
    fun e₃ hlater => acked_is_final hnext hacked hquiet hlater⟩

end ReliableDelivery
