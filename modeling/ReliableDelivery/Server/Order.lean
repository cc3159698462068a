import ReliableDelivery.Server.Pushes
import ReliableDelivery.Server.Schedule

/-!
# The order of a conversation

A message that is pushed for the first time ought to come after the messages
that were sent before it to the same user.  A replay of the pending index keeps
this order, and a message that has left the index has been pushed.  But a live
delivery does not look at the index: a message that is created while a login is
still replaying overtakes those that wait.  This module shows what the order
rests on.
-/

namespace ReliableDelivery

open Decimal Redis MessageStore TransitionSystem Program

variable {P : Platform}

/-! ## What is pushed and what waits -/

/-- The step pushes the message, not as history. -/
def ServerLabel.pushesLive (id : UInt64) : ServerLabel → Bool
  | .execute _ _ (.sendEnvelope _ envelope) _ => envelope.pushesLive id
  | _ => false

/-- The message has been pushed. -/
def Pushed (e : ServerRun P) (id : UInt64) : Prop :=
  ∃ x ∈ e.history, x.2.pushesLive id = true

/-- The message waits for its first delivery. -/
def Waiting (db : Db) (id : UInt64) : Prop :=
  fieldOf db (makeMessageKey id) (literal "status") =
      some (literal "Pending") ∧
    fieldOf db (makeMessageKey id) (literal "delivered_at_ms") =
      some (toText 0)

/-- The step from `a` to `b`, at the clock reading `now`, creates the message
from a request on the connection. -/
def CreatesFrom (a b : ServerRun P) (conn : Conn) (toUid id now : UInt64) :
    Prop :=
  ∃ t job envelope fromUid content clientMsgId answer,
    Handles job conn envelope ∧
    Execution.Next a (.execute t job (.redis (.evalCreateMessage fromUid toUid
      content clientMsgId now)) answer) b ∧
    ¬HasMessage a.state.store.db id ∧ HasMessage b.state.store.db id

/-- The messages were created from requests on one connection to one user, one
after the other. -/
def CreatedBefore (e : ServerRun P) (conn : Conn) (toUid id₁ id₂ : UInt64) :
    Prop :=
  ∃ (a₁ b₁ a₂ b₂ : ServerRun P) (now₁ now₂ : UInt64),
    CreatesFrom a₁ b₁ conn toUid id₁ now₁ ∧
    CreatesFrom a₂ b₂ conn toUid id₂ now₂ ∧
    Execution.Later b₁ a₂ ∧ Execution.Later b₂ e

/-- The clock readings of successive creations increase. -/
def ClockIncreases (e : ServerRun P) : Prop :=
  ∀ (a₁ b₁ a₂ b₂ : ServerRun P) t₁ job₁ from₁ to₁ content₁ client₁ now₁ answer₁
    t₂ job₂ from₂ to₂ content₂ client₂ now₂ answer₂,
    Execution.Next a₁ (.execute t₁ job₁ (.redis (.evalCreateMessage from₁ to₁
      content₁ client₁ now₁)) answer₁) b₁ →
    Execution.Next a₂ (.execute t₂ job₂ (.redis (.evalCreateMessage from₂ to₂
      content₂ client₂ now₂)) answer₂) b₂ →
    Execution.Later b₁ a₂ → Execution.Later b₂ e → now₁ < now₂

/-- What the order rests on. -/
structure Orderly (e : ServerRun P) : Prop where
  /-- When a chat handler pushes its message, no earlier message from the same
  connection to the same user is waiting. -/
  live : ∀ (e₀ e₁ : ServerRun P) t job conn request conn' envelope sender toUid
    id₁ id₂,
    Execution.Next e₀ (.execute t job (.sendEnvelope conn' envelope) ()) e₁ →
    Execution.Later e₁ e → Handles job conn request → request.type = .chatReq →
    envelope.pushesLive id₂ = true → CreatedBefore e₀ sender toUid id₁ id₂ →
    ¬Waiting e₀.state.store.db id₁
  /-- When a replay pushes a message, it has found its user connected each time
  it looked. -/
  replay : ∀ (e₀ e₁ : ServerRun P) t job conn envelope id uid answer s,
    Execution.Next e₀ (.execute t job (.sendEnvelope conn envelope) ()) e₁ →
    Execution.Later e₁ e → envelope.pushesLive id = true →
    Did e₀ job (.redis (.zrangePending uid)) answer s →
    (∀ uid' s', ¬Did e₀ job (.getConnByUid uid') none s') ∧
      ∀ conn' s', ¬Did e₀ job (.connected conn') false s'
  /-- Reading a record does not fail. -/
  reads : ∀ s t job id answer,
    (s, .execute t job (.redis (.hmgetRecord id)) answer) ∈ e.history →
      answer ≠ none
  /-- Users acknowledge what was pushed to them. -/
  acks : ∀ (e₀ e₁ : ServerRun P) t job id uid now answer,
    Execution.Next e₀ (.execute t job
      (.redis (.evalMarkAckedScript id uid now)) answer) e₁ →
    Execution.Later e₁ e →
    fieldOf e₀.state.store.db (makeMessageKey id) (literal "to_uid") =
      some (toText uid) → Pushed e₀ id

theorem Pushed.mono {e e' : ServerRun P} {id : UInt64} (h : Pushed e id)
    (hlater : Execution.Later e e') : Pushed e' id := by
  obtain ⟨x, hx, hpush⟩ := h
  exact ⟨x, hlater.mem_history hx, hpush⟩

theorem Orderly.before {e e' : ServerRun P} (h : Orderly e')
    (hlater : Execution.Later e e') : Orderly e where
  live e₀ e₁ t job conn request conn' envelope sender toUid id₁ id₂ hnext
    hbefore :=
    h.live e₀ e₁ t job conn request conn' envelope sender toUid id₁ id₂ hnext
      (hbefore.trans hlater)
  replay e₀ e₁ t job conn envelope id uid answer s hnext hbefore :=
    h.replay e₀ e₁ t job conn envelope id uid answer s hnext
      (hbefore.trans hlater)
  reads s t job id answer hmem :=
    h.reads s t job id answer (hlater.mem_history hmem)
  acks e₀ e₁ t job id uid now answer hnext hbefore :=
    h.acks e₀ e₁ t job id uid now answer hnext (hbefore.trans hlater)

theorem pushed_of_trace {e : ServerRun P} {job : Job} {id : UInt64}
    (h : HasPushed ((serverThreads P).trace e job) id) : Pushed e id := by
  obtain ⟨conn, envelope, hmem, hpush⟩ := h
  obtain ⟨s, t, hdid⟩ := did_of_mem_trace hmem
  exact ⟨_, hdid, hpush⟩

/-- A record that a job has read is a message of an earlier point of the
run. -/
theorem found_of_trace {e : ServerRun P} {job : Job} {id : UInt64}
    {record : MessageRecord}
    (h : HasRead ((serverThreads P).trace e job) id record) :
    ∃ (e₁ : ServerRun P) (m : Message), Execution.Later e₁ e ∧
      e₁.ledger.find id = some m ∧ record = m.record id := by
  obtain ⟨answer, hmem, hread⟩ := h
  obtain ⟨s, hdid⟩ := did_of_mem_trace hmem
  exact found_of_did hdid hread

theorem waiting_iff {db : Db} {L : Ledger} (hL : Represents (entriesOf db) L)
    (id : UInt64) :
    Waiting db id ↔ ∃ m, L.find id = some m ∧ m.status = .pending ∧
      m.deliveredAtMs = 0 := by
  cases hm : L.find id with
  | none => simp [Waiting, hL.fields_noMessage hm]
  | some m =>
      have hfields := hL.fields_message hm
      simp only [recordFields, Message.texts, List.map_cons,
        List.cons.injEq] at hfields
      have hstatus := hL.status_iff id .pending
      rw [hm] at hstatus
      simp only [Waiting]
      rw [show some (literal "Pending") = some MessageStatus.pending.text from
        rfl, hstatus, hfields.2.2.2.2.2.2.2.1]
      simp

/-! ## What waits and what has been pushed -/

/-- A message that does not wait for its first delivery has been pushed. -/
theorem waiting_or_pushed (e : ServerRun P) (h : Orderly e) {id : UInt64}
    {m : Message} (hm : e.ledger.find id = some m) :
    m.status = .pending ∧ m.deliveredAtMs = 0 ∨ Pushed e id := by
  revert h id m
  apply Execution.induct_before (P := fun e : ServerRun P => Orderly e →
    ∀ {id : UInt64} {m : Message}, e.ledger.find id = some m →
      m.status = .pending ∧ m.deliveredAtMs = 0 ∨ Pushed e id)
  · intro e _ hinit _ id m hm
    have hempty : ServerRun.ledger e = .empty := by
      have hs : e.state = {} := hinit
      rw [ServerRun.ledger, hs]
      exact StoreDb.ledger_empty
    rw [hempty] at hm
    cases hm
  · intro e e' l ih hnext h id m' hm'
    have hkeep : ∀ m, (ServerRun.ledger e).find id = some m →
        m.status = .pending ∧ m.deliveredAtMs = 0 ∨ Pushed e' id := by
      intro m hm
      exact (ih e (.refl e) (h.before hnext.later) hm).imp_right
        fun hpushed => hpushed.mono hnext.later
    rcases ServerRun.ledger_next hnext with
      hsame | ⟨t, job, request, answer, rfl, hafter⟩
    · exact hkeep m' (by rw [← hsame]; exact hm')
    · rw [hafter] at hm'
      have hstep : ServerStep P e.state (.execute t job (.redis request) answer)
        e'.state := hnext.1
      obtain ⟨next, -, hrunning, -, -⟩ := hstep.execute_inv
      have hrule := pushRule_of_running e hrunning
      rcases Ledger.find_after_cases hm' with
        hm | ⟨_, _, _, _, _, -, -, -, rfl⟩ | ⟨m, script, now, rfl, hm, rfl⟩ |
        ⟨m, now, rfl, hm, rfl⟩ | ⟨m, rfl, hm, rfl⟩
      · exact hkeep m' hm
      · exact .inl ⟨rfl, rfl⟩
      · cases script with
        | markDelivered =>
            exact .inr ((pushed_of_trace hrule).mono hnext.later)
        | markPending =>
            exact (hkeep m hm).imp_left fun hwaits => ⟨rfl, hwaits.2⟩
        | markFailed =>
            obtain ⟨id', record, hread, hdelivered, hid⟩ := hrule
            obtain ⟨e₁, m₁, hlater, hm₁, rfl⟩ := found_of_trace hread
            cases hid
            have hbefore : Orderly e₁ := h.before (hlater.trans hnext.later)
            rcases ih e₁ hlater hbefore hm₁ with ⟨hpending, -⟩ | hpushed
            · rw [Message.record, hpending] at hdelivered
              cases hdelivered
            · exact .inr (hpushed.mono (hlater.trans hnext.later))
      · have hto := ((ServerRun.represents e).toUid_iff id m.toUid).mpr ⟨m, hm, rfl⟩
        exact .inr ((h.acks e e' t job id m.toUid now answer hnext (.refl e')
          hto).mono hnext.later)
      · exact hkeep m hm

/-! ## The order of creation -/

theorem CreatesFrom.find {a b : ServerRun P} {conn : Conn}
    {toUid id now : UInt64} (h : CreatesFrom a b conn toUid id now) :
    a.ledger.find id = none ∧ ∃ m, b.ledger.find id = some m ∧
      m.toUid = toUid ∧ m.createdAtMs = now := by
  obtain ⟨t, job, envelope, fromUid, content, clientMsgId, answer, -, hnext,
    habsent, hpresent⟩ := h
  rw [hasMessage_iff a.represents] at habsent
  obtain ⟨m, hm⟩ := (hasMessage_iff b.represents id).mp hpresent
  refine ⟨?_, m, hm, ?_⟩
  · rw [Option.eq_none_iff_forall_ne_some]
    intro m' hm'
    exact habsent ⟨m', hm'⟩
  · rcases ServerRun.ledger_next hnext with
      hsame | ⟨_, _, request, _, hl, hafter⟩
    · rw [hsame] at hm
      exact absurd ⟨m, hm⟩ habsent
    · cases hl
      rw [hafter] at hm
      rcases Ledger.find_after_cases hm with
        hm | ⟨_, _, _, _, _, hrequest, -, -, rfl⟩ | ⟨_, _, _, hrequest, -, -⟩ |
        ⟨_, _, hrequest, -, -⟩ | ⟨_, hrequest, -, -⟩
      · exact absurd ⟨m, hm⟩ habsent
      · cases hrequest
        exact ⟨rfl, rfl⟩
      · cases hrequest
      · cases hrequest
      · cases hrequest

/-- Where the message is present, it has been created. -/
theorem CreatesFrom.later {a b e e₁ : ServerRun P} {conn : Conn}
    {toUid id now : UInt64} (h : CreatesFrom a b conn toUid id now)
    (hb : Execution.Later b e) (he₁ : Execution.Later e₁ e) {m : Message}
    (hm : e₁.ledger.find id = some m) : Execution.Later b e₁ := by
  have habsent : ¬Execution.Later e₁ a := by
    intro hlater
    obtain ⟨m', hm', -⟩ := (ServerRun.extends_later hlater).2 id m hm
    rw [h.find.1] at hm'
    cases hm'
  obtain ⟨_, _, _, _, _, _, _, -, hnext, -⟩ := h
  rcases hb.total he₁ with hlater | hlater
  · exact hlater
  · rcases hlater.eq_or_before hnext with rfl | hbefore
    · exact .refl _
    · exact absurd hbefore habsent

section Before

variable {e e₁ : ServerRun P} {conn : Conn} {toUid id₁ id₂ : UInt64}
  {m₂ : Message}

theorem CreatedBefore.at (h : CreatedBefore e conn toUid id₁ id₂)
    (hlater : Execution.Later e₁ e) (hm₂ : e₁.ledger.find id₂ = some m₂) :
    CreatedBefore e₁ conn toUid id₁ id₂ := by
  obtain ⟨a₁, b₁, a₂, b₂, now₁, now₂, h₁, h₂, hbetween, hb₂⟩ := h
  exact ⟨a₁, b₁, a₂, b₂, now₁, now₂, h₁, h₂, hbetween,
    h₂.later hb₂ hlater hm₂⟩

/-- Where the second message is present, the first one is, with the same
receiver and an earlier time of creation. -/
theorem CreatedBefore.find (h : CreatedBefore e conn toUid id₁ id₂)
    (hclock : ClockIncreases e) (hm₂ : e.ledger.find id₂ = some m₂) :
    ∃ m₁, e.ledger.find id₁ = some m₁ ∧ m₁.toUid = m₂.toUid ∧
      m₁.createdAtMs < m₂.createdAtMs := by
  obtain ⟨a₁, b₁, a₂, b₂, now₁, now₂, h₁, h₂, hbetween, hb₂⟩ := h
  have hnow : now₁ < now₂ := by
    obtain ⟨_, _, _, _, _, _, _, -, hnext₁, -⟩ := h₁
    obtain ⟨_, _, _, _, _, _, _, -, hnext₂, -⟩ := h₂
    exact hclock _ _ _ _ _ _ _ _ _ _ _ _ _ _ _ _ _ _ _ _ hnext₁ hnext₂
      hbetween hb₂
  have horigin : ∀ {a b : ServerRun P} {id now : UInt64},
      CreatesFrom a b conn toUid id now → Execution.Later b e →
      ∃ m, e.ledger.find id = some m ∧ m.toUid = toUid ∧
        m.createdAtMs = now := by
    intro a b id now hcreates hlater
    obtain ⟨-, m, hm, hto, hcreated⟩ := hcreates.find
    obtain ⟨m', hm', horigin, -⟩ := (ServerRun.extends_later hlater).2 id m hm
    simp only [Message.origin, Prod.mk.injEq] at horigin
    exact ⟨m', hm', horigin.2.1.trans hto, horigin.2.2.2.2.trans hcreated⟩
  obtain ⟨_, _, _, _, _, _, _, -, hnext₂, -⟩ := id h₂
  obtain ⟨m₁, hm₁, hto₁, hcreated₁⟩ :=
    horigin h₁ (hbetween.trans (hnext₂.later.trans hb₂))
  obtain ⟨m, hm, hto, hcreated⟩ := horigin h₂ hb₂
  rw [hm, Option.some.injEq] at hm₂
  subst hm₂
  exact ⟨m₁, hm₁, hto₁.trans hto.symm, by rw [hcreated₁, hcreated]; exact hnow⟩

end Before

/-! ## The order of pushes -/

section Order

variable {e e' : ServerRun P} {job : Job} {sender : Conn}
  {toUid id₁ id₂ : UInt64}

theorem ClockIncreases.before (h : ClockIncreases e')
    (hlater : Execution.Later e e') : ClockIncreases e := by
  intro a₁ b₁ a₂ b₂ t₁ job₁ from₁ to₁ content₁ client₁ now₁ answer₁
    t₂ job₂ from₂ to₂ content₂ client₂ now₂ answer₂ h₁ h₂ hbetween hb₂
  exact h a₁ b₁ a₂ b₂ t₁ job₁ from₁ to₁ content₁ client₁ now₁ answer₁
    t₂ job₂ from₂ to₂ content₂ client₂ now₂ answer₂ h₁ h₂ hbetween
    (hb₂.trans hlater)

/-- A message that is not waiting where the second one is present has been
pushed there. -/
theorem CreatedBefore.pushed (h : CreatedBefore e sender toUid id₁ id₂)
    (hclock : ClockIncreases e) (horderly : Orderly e) {m₂ : Message}
    (hm₂ : e.ledger.find id₂ = some m₂)
    (hwaits : ¬Waiting e.state.store.db id₁) : Pushed e id₁ := by
  obtain ⟨m₁, hm₁, -, -⟩ := h.find hclock hm₂
  rcases waiting_or_pushed e horderly hm₁ with hwaiting | hpushed
  · exact absurd ((waiting_iff e.represents id₁).mpr ⟨m₁, hm₁, hwaiting⟩) hwaits
  · exact hpushed

/-- A replay that has come to a message has pushed what was created before. -/
theorem IsNext.pushed (h : IsNext ((serverThreads P).trace e job) id₂)
    (hbefore : CreatedBefore e sender toUid id₁ id₂)
    (hclock : ClockIncreases e) (horderly : Orderly e)
    (hmissed : ¬HasMissed ((serverThreads P).trace e job)) : Pushed e id₁ := by
  obtain ⟨uid, answer, before, after, hmem, hlist, hpassed⟩ := h
  obtain ⟨s, hdid⟩ := did_of_mem_trace hmem
  rcases answer with _ | reply
  · simp [replyElements] at hlist
  · obtain ⟨e₀, hlater, hreply⟩ := Did.answered hdid
    obtain ⟨ids, hrun, hids, hsorted⟩ :=
      run_zrangePending (ServerRun.represents e₀) uid
    rw [hrun] at hreply
    rw [← hreply, filterMap_replyOfIds] at hlist
    subst hlist
    obtain ⟨m₂, hm₂, hto₂, -⟩ := (hids id₂).mp (by simp)
    have hbefore₀ := hbefore.at hlater hm₂
    obtain ⟨m₁, hm₁, hto, hcreated⟩ :=
      hbefore₀.find (hclock.before hlater) hm₂
    rcases waiting_or_pushed e₀ (horderly.before hlater) hm₁ with
      ⟨hpending, -⟩ | hpushed
    · have hlisted : id₁ ∈ before := by
        have hmem₁ := (hids id₁).mpr ⟨m₁, hm₁, hto.trans hto₂, hpending⟩
        rcases List.mem_append.mp hmem₁ with hfront | hback
        · exact hfront
        · exfalso
          rcases List.mem_cons.mp hback with rfl | hafter
          · rw [hm₁, Option.some.injEq] at hm₂
            subst hm₂
            exact UInt64.lt_irrefl _ hcreated
          · have hle := (List.pairwise_cons.mp
              (List.pairwise_append.mp hsorted).2.1).1 id₁ hafter m₂ m₁ hm₂ hm₁
            exact UInt64.not_lt.mpr hle hcreated
      rcases hpassed id₁ hlisted with ⟨record, hread, hpushed⟩ | hskipped | hmiss
      · obtain ⟨e₁, m, -, -, rfl⟩ := found_of_trace hread
        exact pushed_of_trace hpushed
      · rcases hskipped with rfl | ⟨answer, hread, hskip⟩
        · have hnumbered := (e₀.ledger.numbered 0).mp (by rw [hm₁]; rfl)
          exact absurd hnumbered.1 (by decide)
        · obtain ⟨s', hdid'⟩ := did_of_mem_trace hread
          rcases answer with _ | reply'
          · obtain ⟨t, hhistory⟩ := hdid'
            exact absurd rfl (horderly.reads _ _ _ _ _ hhistory)
          · obtain ⟨e₁, m, hlater₁, hm, hrecord⟩ := Did.exists_read hdid'
            have hsame : m.toUid = uid := by
              obtain ⟨m', hm', horigin, -⟩ :=
                (ServerRun.extends_later hlater).2 id₁ m₁ hm₁
              obtain ⟨m'', hm'', horigin', -⟩ :=
                (ServerRun.extends_later hlater₁).2 id₁ m hm
              rw [hm', Option.some.injEq] at hm''
              subst hm''
              simp only [Message.origin, Prod.mk.injEq] at horigin horigin'
              rw [← horigin'.2.1, horigin.2.1, hto, hto₂]
            have hkeep := hskip _ hrecord
            simp only [isPendingFor, Message.record, hsame, decide_true,
              Bool.true_and, decide_eq_false_iff_not] at hkeep
            rcases waiting_or_pushed e₁ (horderly.before hlater₁) hm with
              hwaits | hpushed
            · exact absurd hwaits.1 hkeep
            · exact hpushed.mono hlater₁
      · exact absurd hmiss hmissed
    · exact hpushed.mono hlater

theorem chatPush_of_pushesLive {envelope : Envelope} {id : UInt64}
    (h : envelope.pushesLive id = true) :
    ∃ push, envelope.chatPush? = some push ∧ push.msgId = id ∧
      push.history = false := by
  simpa [Envelope.pushesLive, Option.any_eq_true] using h

theorem ServerLabel.pushesLive_eq_true {l : ServerLabel} {id : UInt64} :
    l.pushesLive id = true ↔ ∃ t job conn envelope,
      l = .execute t job (.sendEnvelope conn envelope) () ∧
        envelope.pushesLive id = true := by
  constructor
  · intro h
    unfold ServerLabel.pushesLive at h
    split at h
    · exact ⟨_, _, _, _, rfl, h⟩
    · cases h
  · rintro ⟨t, job, conn, envelope, rfl, h⟩
    exact h

/-- What is pushed is in the ledger. -/
theorem find_of_next {t : Thread} {conn : Conn} {envelope : Envelope}
    {id : UInt64}
    (hsend : Execution.Next e
      (.execute t job (.sendEnvelope conn envelope) ()) e')
    (hlive : envelope.pushesLive id = true) :
    ∃ m, e.ledger.find id = some m := by
  obtain ⟨push, hpush, rfl, -⟩ := chatPush_of_pushesLive hlive
  obtain ⟨record, ⟨m, hm, -⟩, ⟨now, stamp, -, hform⟩, -⟩ :=
    pushOf_known hsend hpush
  rw [hform] at hpush
  rw [← congrArg ChatPush.msgId (Option.some.inj hpush)]
  exact ⟨m, hm⟩

theorem Pushed.find {id : UInt64} (h : Pushed e id) :
    ∃ m, e.ledger.find id = some m := by
  obtain ⟨⟨s, l⟩, hmem, hl⟩ := h
  obtain ⟨e₁, e₂, -, hnext, hlater⟩ := Execution.exists_next_of_mem hmem
  obtain ⟨t, job, conn, envelope, rfl, hlive⟩ :=
    ServerLabel.pushesLive_eq_true.mp hl
  obtain ⟨m, hm⟩ := find_of_next hnext hlive
  obtain ⟨m', hm', -⟩ :=
    (ServerRun.extends_later (hnext.later.trans hlater)).2 id m hm
  exact ⟨m', hm'⟩

/-- One push: what was created before has been pushed, if that is so for the
pushes before this one. -/
theorem pushed_of_next {t : Thread} {conn : Conn} {envelope : Envelope}
    (hsend : Execution.Next e
      (.execute t job (.sendEnvelope conn envelope) ()) e')
    (hlive : envelope.pushesLive id₂ = true)
    (hbefore : CreatedBefore e sender toUid id₁ id₂)
    (hclock : ClockIncreases e) (horderly : Orderly e')
    (hearlier : ∀ e₁ : ServerRun P, Execution.Later e₁ e → Pushed e₁ id₂ →
      Pushed e₁ id₁) : Pushed e id₁ := by
  have horderly₀ := horderly.before hsend.later
  obtain ⟨push, hpush, hid, hhistory⟩ := chatPush_of_pushesLive hlive
  obtain ⟨record, ⟨m₂, hm₂, -⟩, ⟨now, stamp, -, hform⟩, hmay⟩ :=
    pushOf_known hsend hpush
  obtain rfl : record.msgId = id₂ := by
    rw [hform] at hpush
    exact (congrArg ChatPush.msgId (Option.some.inj hpush)).trans hid
  rcases hmay hhistory with hcreated | ⟨id, hread, hdelivered | hnext⟩
  · obtain ⟨_, _, _, _, _, _, hmem, -⟩ := hcreated
    obtain ⟨s, t', hhistory'⟩ := did_of_mem_trace hmem
    obtain ⟨e₁, e₂, -, hcreate, -⟩ := Execution.exists_next_of_mem hhistory'
    obtain ⟨conn', request, -, hhandles, htype, -⟩ := justified_of_next hcreate
    exact hbefore.pushed hclock horderly₀ hm₂
      (horderly.live e e' t job conn' request conn envelope sender toUid id₁
        record.msgId hsend (.refl e') hhandles htype hlive hbefore)
  · obtain ⟨e₁, m, hlater, hm, rfl⟩ := found_of_trace hread
    rcases waiting_or_pushed e₁ (horderly₀.before hlater) hm with
      ⟨hpending, -⟩ | hpushed
    · rw [Message.record, hpending] at hdelivered
      cases hdelivered
    · exact (hearlier e₁ hlater hpushed).mono hlater
  · obtain ⟨e₁, m, -, -, rfl⟩ := found_of_trace hread
    apply hnext.pushed hbefore hclock horderly₀
    obtain ⟨uid, answer, _, _, hmem, -, -⟩ := hnext
    obtain ⟨s, hdid⟩ := did_of_mem_trace hmem
    obtain ⟨hfound, hconnected⟩ := horderly.replay e e' t job conn envelope _ uid
      answer s hsend (.refl e') hlive hdid
    rintro (⟨uid', hmiss⟩ | ⟨conn', hmiss⟩)
    · obtain ⟨s', hdid'⟩ := did_of_mem_trace hmiss
      exact hfound uid' s' hdid'
    · obtain ⟨s', hdid'⟩ := did_of_mem_trace hmiss
      exact hconnected conn' s' hdid'

/-- Where the second message has been pushed, the first one has. -/
theorem pushed_before (e : ServerRun P) (horderly : Orderly e)
    (hclock : ClockIncreases e)
    (hbefore : CreatedBefore e sender toUid id₁ id₂) (hpushed : Pushed e id₂) :
    Pushed e id₁ := by
  revert horderly hclock hbefore hpushed
  apply Execution.induct_before (P := fun e : ServerRun P => Orderly e →
    ClockIncreases e → CreatedBefore e sender toUid id₁ id₂ → Pushed e id₂ →
    Pushed e id₁)
  · intro e hnil _ _ _ _ hpushed
    obtain ⟨x, hx, -⟩ := hpushed
    rw [hnil] at hx
    cases hx
  · intro e e' l ih hnext horderly hclock hbefore hpushed
    have hearlier : ∀ e₁ : ServerRun P, Execution.Later e₁ e →
        Pushed e₁ id₂ → Pushed e₁ id₁ := by
      intro e₁ hlater hpushed₁
      obtain ⟨m₂, hm₂⟩ := hpushed₁.find
      have hlater' := hlater.trans hnext.later
      exact ih e₁ hlater (horderly.before hlater') (hclock.before hlater')
        (hbefore.at hlater' hm₂) hpushed₁
    obtain ⟨x, hx, hl⟩ := hpushed
    rw [hnext.2] at hx
    rcases List.mem_cons.mp hx with rfl | hx
    · obtain ⟨t, job, conn, envelope, rfl, hlive⟩ :=
        ServerLabel.pushesLive_eq_true.mp hl
      obtain ⟨m₂, hm₂⟩ := find_of_next hnext hlive
      exact (pushed_of_next hnext hlive (hbefore.at hnext.later hm₂)
        (hclock.before hnext.later) horderly hearlier).mono hnext.later
    · exact (hearlier e (.refl e) ⟨x, hx, hl⟩).mono hnext.later

/-- In every run that is orderly up to the push of a message, the messages
created before it from the same connection to the same user have been pushed. -/
theorem conversation_in_order {t : Thread} {conn : Conn} {envelope : Envelope}
    (hclock : ClockIncreases e) (horderly : Orderly e')
    (hbefore : CreatedBefore e sender toUid id₁ id₂)
    (hsend : Execution.Next e
      (.execute t job (.sendEnvelope conn envelope) ()) e')
    (hlive : envelope.pushesLive id₂ = true) : Pushed e id₁ := by
  apply pushed_of_next hsend hlive hbefore hclock horderly
  intro e₁ hlater hpushed
  obtain ⟨m₂, hm₂⟩ := hpushed.find
  exact pushed_before e₁ (horderly.before (hlater.trans hsend.later))
    (hclock.before hlater) (hbefore.at hlater hm₂) hpushed

end Order

/-! ## Concrete runs -/

/-- The clock reading of a creation. -/
def ServerLabel.createsAt : ServerLabel → Option UInt64
  | .execute _ _ (.redis (.evalCreateMessage _ _ _ _ now)) _ => some now
  | _ => none

theorem clockIncreases_of_history {e : ServerRun P}
    (h : (e.history.filterMap fun x => x.2.createsAt).Pairwise
      fun now earlier => earlier < now) : ClockIncreases e := by
  intro a₁ b₁ a₂ b₂ t₁ job₁ from₁ to₁ content₁ client₁ now₁ answer₁
    t₂ job₂ from₂ to₂ content₂ client₂ now₂ answer₂ h₁ h₂ hbetween hb₂
  have hsuffix := hb₂.history_suffix
  rw [h₂.2] at hsuffix
  have hpast := (List.pairwise_cons.mp
    ((List.pairwise_filterMap.mp h).sublist hsuffix.sublist)).1
  exact hpast _ (hbetween.mem_history h₁.mem_history) now₂ rfl now₁ rfl

/-- The job handles a chat request. -/
def Job.isChat (job : Job) : Bool :=
  match job.task with
  | .event (.envelope _ envelope) => envelope.type = .chatReq
  | _ => false

/-- Messages are pushed by replays only, which find their user connected;
reads succeed and nothing is acknowledged. -/
def ServerLabel.replaysOnly : ServerLabel → Bool
  | .execute _ job (.sendEnvelope _ envelope) _ =>
      !envelope.chatPush?.any (fun push => !push.history) || !job.isChat
  | .execute _ job (.getConnByUid _) answer => answer.isSome || job.isChat
  | .execute _ job (.connected _) answer => answer || job.isChat
  | .execute _ _ (.redis (.hmgetRecord _)) answer => answer.isSome
  | .execute _ _ (.redis (.evalMarkAckedScript _ _ _)) _ => false
  | _ => true

theorem orderly_of_replaysOnly {e : ServerRun P}
    (h : e.history.all (fun x => x.2.replaysOnly) = true) : Orderly e := by
  rw [List.all_eq_true] at h
  have hpushes : ∀ {e₀ e₁ : ServerRun P} {t job conn envelope id},
      Execution.Next e₀ (.execute t job (.sendEnvelope conn envelope) ()) e₁ →
      Execution.Later e₁ e → envelope.pushesLive id = true →
      job.isChat = false := by
    intro e₀ e₁ t job conn envelope id hnext hlater hlive
    obtain ⟨push, hpush, -, hhistory⟩ := chatPush_of_pushesLive hlive
    have hx := h _ (hlater.mem_history hnext.mem_history)
    simpa [ServerLabel.replaysOnly, hpush, hhistory] using hx
  refine ⟨?_, ?_, ?_, ?_⟩
  · intro e₀ e₁ t job conn request conn' envelope sender toUid id₁ id₂ hnext
      hlater hhandles htype hlive
    have hchat := hpushes hnext hlater hlive
    simp [Job.isChat, show job.task = _ from hhandles, htype] at hchat
  · intro e₀ e₁ t job conn envelope id uid answer s hnext hlater hlive hdid
    have hchat := hpushes hnext hlater hlive
    have hlater₀ := hnext.later.trans hlater
    refine ⟨?_, ?_⟩
    · rintro uid' s' ⟨t', hmiss⟩
      have hx := h _ (hlater₀.mem_history hmiss)
      simp [ServerLabel.replaysOnly, hchat] at hx
    · rintro conn' s' ⟨t', hmiss⟩
      have hx := h _ (hlater₀.mem_history hmiss)
      simp [ServerLabel.replaysOnly, hchat] at hx
  · intro s t job id answer hmem hnone
    have hx := h _ hmem
    rw [hnone] at hx
    cases hx
  · intro e₀ e₁ t job id uid now answer hnext hlater
    have hx := h _ (hlater.mem_history hnext.mem_history)
    cases hx

/-- A thread that is about to create a message creates it. -/
theorem exists_createsFrom {e : ServerRun P} {t : Thread} {job : Job}
    {conn : Conn} {envelope : Envelope} {fromUid toUid id now : UInt64}
    {content clientMsgId : Bytes}
    (hissues : e.state.issues t = some (job, .redis (.evalCreateMessage fromUid
      toUid content clientMsgId now)))
    (hhandles : job.task = .event (.envelope conn envelope))
    (habsent : (fieldOf e.state.store.db (makeMessageKey id)
      (literal "status")).isSome = false)
    (hpresent : (fieldOf ((serverDriver P).follow e.state [.call t now]).store.db
      (makeMessageKey id) (literal "status")).isSome = true) :
    ∃ e' : ServerRun P, CreatesFrom e e' conn toUid id now ∧
      e'.state = (serverDriver P).follow e.state [.call t now] ∧
      e'.history =
        ((serverDriver P).trace e.state [.call t now]).reverse ++ e.history := by
  obtain ⟨e', hnext, hstate, hhistory⟩ := exists_execute now hissues
  refine ⟨e', ⟨t, job, envelope, fromUid, content, clientMsgId, _, hhandles,
    hnext, ?_, ?_⟩, hstate, hhistory⟩
  · rw [hasMessage_iff_status e.represents, habsent]
    simp
  · rw [hasMessage_iff_status e'.represents, hstate, hpresent]

/-- User 1 is online on connection 0 and about to create a message for user 2,
who is offline. -/
def firstMessage : List Choice :=
  [.connect 0, .receive 0 (loginAs 1)] ++ complete 0 20 ++
    [.receive 0 (chatFrom 1 2 7 (literal "hi") (literal "a"))] ++ work 0 2

/-- The first message is created and, after something else has happened, user 1
is about to create a second one. -/
def secondMessage (between : List Choice) : List Choice :=
  List.replicate 20 (.call (.worker 0) 1000) ++ [.finish (.worker 0)] ++
    between ++ [.receive 0 (chatFrom 1 2 8 (literal "ho") (literal "b")),
      .begin 0, .call (.worker 0) 2000, .call (.worker 0) 2000]

/-- A run along `firstMessage` and `secondMessage`. -/
theorem exists_conversation {between : List Choice} (after : List Choice)
    {s : ServerState} {n : ℕ}
    (hs : s = (serverDriver wirePlatform).follow
      ((serverDriver wirePlatform).follow {}
        (firstMessage ++ [.call (.worker 0) 1000])) (secondMessage between))
    (hissues : s.issues (.worker 0) = some
      (⟨n, .event (.envelope 0 (chatFrom 1 2 8 (literal "ho") (literal "b")))⟩,
        .redis (.evalCreateMessage 1 2 (literal "ho") (literal "b") 2000)))
    (habsent : (fieldOf s.store.db (makeMessageKey 2)
      (literal "status")).isSome = false)
    (hpresent : (fieldOf ((serverDriver wirePlatform).follow s
      [.call (.worker 0) 2000]).store.db (makeMessageKey 2)
        (literal "status")).isSome = true) :
    ∃ e : ServerRun wirePlatform, CreatedBefore e 0 2 1 2 ∧
      e.state = (serverDriver wirePlatform).follow {}
        (firstMessage ++ [.call (.worker 0) 1000] ++ secondMessage between ++
          [.call (.worker 0) 2000] ++ after) ∧
      e.history = ((serverDriver wirePlatform).trace {}
        (firstMessage ++ [.call (.worker 0) 1000] ++ secondMessage between ++
          [.call (.worker 0) 2000] ++ after)).reverse := by
  obtain ⟨a₁, hstate₁, hhistory₁⟩ := exists_run wirePlatform firstMessage
  obtain ⟨b₁, hcreates₁, hstate₁', hhistory₁'⟩ := @exists_createsFrom _ a₁
    (.worker 0) ⟨1, .event (.envelope 0
      (chatFrom 1 2 7 (literal "hi") (literal "a")))⟩
    0 (chatFrom 1 2 7 (literal "hi") (literal "a")) 1 2 1 1000 (literal "hi")
    (literal "a") (by rw [hstate₁]; decide +kernel) rfl
    (by rw [hstate₁]; decide +kernel) (by rw [hstate₁]; decide +kernel)
  rw [hstate₁, ← Driver.follow_append] at hstate₁'
  obtain ⟨a₂, hlater₂, hstate₂, hhistory₂⟩ :=
    (serverDriver wirePlatform).exists_follow (secondMessage between) b₁
  rw [hstate₁'] at hstate₂ hhistory₂
  obtain rfl : a₂.state = s := by rw [hstate₂, hs]
  obtain ⟨b₂, hcreates₂, hstate₂', hhistory₂'⟩ :=
    exists_createsFrom hissues rfl habsent hpresent
  obtain ⟨e, hlater, hstate, hhistory⟩ :=
    (serverDriver wirePlatform).exists_follow after b₂
  refine ⟨e, ⟨a₁, b₁, a₂, b₂, 1000, 2000, hcreates₁, hcreates₂, hlater₂,
    hlater⟩, ?_, ?_⟩
  · rw [hstate, hstate₂', hstate₂]
    simp only [Driver.follow_append]
  · rw [hhistory, hhistory₂', hhistory₂, hhistory₁', hhistory₁, hstate₂',
      hstate₂, hstate₁]
    simp only [Driver.trace_append, Driver.follow_append, List.reverse_append,
      List.append_assoc]

/-- User 2 logs in when both messages are pending, and the first has been
replayed. -/
def replayBoth : List Choice :=
  List.replicate 20 (.call (.worker 0) 2000) ++ [.finish (.worker 0)] ++
    [.connect 1, .receive 1 (loginAs 2)] ++ work 6 15

theorem conversation_in_order_replayBoth :
    ∃ e e' : ServerRun wirePlatform,
      Execution.Next e (.execute (.worker 6)
        ⟨3, .event (.envelope 1 (loginAs 2))⟩
        (.sendEnvelope 1
          { type := .chatPush, seq := 2, timestampMs := 1000,
            payload := some (.chatPush
              { msgId := 2, fromUid := 1, toUid := 2, content := literal "ho",
                serverTimestampMs := 2000 }) }) ()) e' ∧
      CreatedBefore e 0 2 1 2 ∧ Pushed e 1 := by
  obtain ⟨e, hbefore, hstate, hhistory⟩ :=
    @exists_conversation [] replayBoth _ 2 rfl (by decide +kernel)
      (by decide +kernel) (by decide +kernel)
  have hissues : e.state.issues (.worker 6) = some
      (⟨3, .event (.envelope 1 (loginAs 2))⟩,
        .sendEnvelope 1
          { type := .chatPush, seq := 2, timestampMs := 1000,
            payload := some (.chatPush
              { msgId := 2, fromUid := 1, toUid := 2, content := literal "ho",
                serverTimestampMs := 2000 }) }) := by
    rw [hstate]
    decide +kernel
  have hclock : ClockIncreases e := by
    apply clockIncreases_of_history
    rw [hhistory]
    decide +kernel
  have hreplays : e.history.all (fun x => x.2.replaysOnly) = true := by
    rw [hhistory]
    decide +kernel
  obtain ⟨e', hnext, -⟩ := exists_execute 1000 hissues
  have horderly : Orderly e' := by
    apply orderly_of_replaysOnly
    rw [hnext.2, List.all_cons, hreplays]
    rfl
  exact ⟨e, e', hnext, hbefore,
    conversation_in_order hclock horderly hbefore hnext (by decide)⟩

/-- The login of user 2 has bound the user and not yet read the pending
index. -/
def loginBegins : List Choice :=
  [.connect 1, .receive 1 (loginAs 2)] ++ work 6 1

/-- The second message is pushed while the first one, which the login goes on to
replay, still waits. -/
theorem conversation_overtaken :
    ∃ (e e' e'' : ServerRun wirePlatform) (t : Thread) (job : Job)
      (conn : Conn) (envelope : Envelope),
      ClockIncreases e'' ∧ CreatedBefore e 0 2 1 2 ∧
      Execution.Next e (.execute t job (.sendEnvelope conn envelope) ()) e' ∧
      envelope.pushesLive 2 = true ∧ ¬Pushed e 1 ∧
      Execution.Later e' e'' ∧ Pushed e'' 1 := by
  obtain ⟨e, hbefore, hstate, hhistory⟩ :=
    @exists_conversation loginBegins (List.replicate 3 (.call (.worker 0) 2000))
      _ 3 rfl (by decide +kernel) (by decide +kernel) (by decide +kernel)
  have hissues : e.state.issues (.worker 0) = some
      (⟨3, .event (.envelope 0 (chatFrom 1 2 8 (literal "ho") (literal "b")))⟩,
        .sendEnvelope 1
          { type := .chatPush, seq := 2, timestampMs := 2000,
            payload := some (.chatPush
              { msgId := 2, fromUid := 1, toUid := 2, content := literal "ho",
                serverTimestampMs := 2000 }) }) := by
    rw [hstate]
    decide +kernel
  have hwaits : (e.history.any fun x => x.2.pushesLive 1) = false := by
    rw [hhistory]
    decide +kernel
  obtain ⟨e', hnext, hstate', hhistory'⟩ := exists_execute 2000 hissues
  obtain ⟨e'', hlater, hstate'', hhistory''⟩ :=
    (serverDriver wirePlatform).exists_follow (List.replicate 12 (.call (.worker 6) 2000)) e'
  rw [hstate', hhistory', hstate, hhistory] at hhistory''
  refine ⟨e, e', e'', _, _, _, _, ?_, hbefore, hnext, by decide, ?_, hlater, ?_⟩
  · apply clockIncreases_of_history
    rw [hhistory'']
    decide +kernel
  · rintro ⟨x, hx, hpush⟩
    rw [List.any_eq_false] at hwaits
    exact hwaits x hx hpush
  · have hpushed : (e''.history.any fun x => x.2.pushesLive 1) = true := by
      rw [hhistory'']
      decide +kernel
    rw [List.any_eq_true] at hpushed
    exact hpushed

end ReliableDelivery
