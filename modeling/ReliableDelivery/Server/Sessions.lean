import ReliableDelivery.Server.Justification
import ReliableDelivery.Server.UserHistory

/-!
# The events of one connection

All events of a connection go to one worker, in the order in which the network
thread queued them, and the worker handles one at a time.  The closing of the
connection comes last.  So once it has been handled, nothing that would log the
connection in again is left.
-/

namespace ReliableDelivery

open TransitionSystem Program

variable {P : Platform}

/-! ## Queued, in hand, handled -/

/-- The event a job is about, if it is one of the connection. -/
def Job.eventOf (c : Conn) (job : Job) : Option ServerEvent :=
  match job.task with
  | .event event => if event.conn = c then some event else none
  | .scan => none

/-- The event of the connection that a network thread queues. -/
def ServerLabel.enqueued (c : Conn) : ServerLabel → Option ServerEvent
  | .receive conn envelope =>
      if conn = c then some (.envelope conn envelope) else none
  | .notifyClosed conn =>
      if conn = c then some (.connectionClosed conn) else none
  | _ => none

/-- The event of the connection that a worker is done with. -/
def ServerLabel.handled (c : Conn) : ServerLabel → Option ServerEvent
  | .finish _ job => job.eventOf c
  | _ => none

namespace ServerState

/-- The events of the connection that wait for their worker. -/
def queuedFor (P : Platform) (s : ServerState) (c : Conn) : List ServerEvent :=
  (s.queues (shard P c)).filterMap (Job.eventOf c)

/-- The event of the connection that its worker is handling. -/
def inHandFor (P : Platform) (s : ServerState) (c : Conn) : List ServerEvent :=
  ((s.running (.worker (shard P c))).bind fun x => x.1.eventOf c).toList

end ServerState

namespace ServerRun

/-- The events of the connection that were queued, in order. -/
def enqueuedFor (e : ServerRun P) (c : Conn) : List ServerEvent :=
  e.log (ServerLabel.enqueued c)

/-- The events of the connection that have been handled, in order. -/
def handledFor (e : ServerRun P) (c : Conn) : List ServerEvent :=
  e.log (ServerLabel.handled c)

end ServerRun

theorem Job.eventOf_eq_some {c : Conn} {job : Job} {event : ServerEvent} :
    job.eventOf c = some event ↔ job.task = .event event ∧ event.conn = c := by
  unfold Job.eventOf
  split
  · next event' htask =>
      rw [htask]
      by_cases hconn : event'.conn = c
      · simp only [if_pos hconn, Option.some.injEq, Task.event.injEq]
        constructor
        · rintro rfl
          exact ⟨rfl, hconn⟩
        · exact fun h => h.1
      · simp only [if_neg hconn, reduceCtorEq, Task.event.injEq, false_iff,
          not_and]
        rintro rfl
        exact hconn
  · next htask => simp [htask]

/-- Jobs of the connection belong to its worker. -/
theorem Job.thread_of_eventOf {c : Conn} {job : Job} {event : ServerEvent}
    (h : job.eventOf c = some event) :
    job.thread P = .worker (ServerState.shard P c) := by
  obtain ⟨htask, hconn⟩ := Job.eventOf_eq_some.mp h
  rw [Job.thread, htask, ← hconn]

section Steps

variable {s s' : ServerState} {l : ServerLabel} {c : Conn}

theorem ServerState.queuedFor_enqueue (event : ServerEvent) :
    (s.enqueue P event.conn event).queuedFor P c =
      s.queuedFor P c ++ (if event.conn = c then [event] else []) := by
  have hevent : Job.eventOf c ⟨s.nextJob, .event event⟩ =
      if event.conn = c then some event else none := rfl
  simp only [ServerState.queuedFor, ServerState.enqueue, Function.update_apply]
  by_cases hshard : ServerState.shard P c = ServerState.shard P event.conn
  · rw [if_pos hshard, List.filterMap_append, ← hshard]
    congr 1
    by_cases hconn : event.conn = c
    · simp [hevent, hconn]
    · simp [hevent, hconn]
  · rw [if_neg hshard]
    have hconn : event.conn ≠ c := by
      rintro rfl
      exact hshard rfl
    rw [if_neg hconn, List.append_nil]

/-- Queue, hand and log move together. -/
theorem ServerStep.events_next (h : ServerStep P s l s') (hs : s.Assigned P) :
    s.inHandFor P c ++ s.queuedFor P c ++ (l.enqueued c).toList =
      (l.handled c).toList ++ (s'.inHandFor P c ++ s'.queuedFor P c) := by
  cases h with
  | receive conn envelope hphase =>
      have hqueued := @ServerState.queuedFor_enqueue P s c
        (.envelope conn envelope)
      have hconn : (ServerEvent.envelope conn envelope).conn = conn := rfl
      rw [hconn] at hqueued
      rw [hqueued]
      by_cases heq : conn = c
      · simp [ServerLabel.enqueued, ServerLabel.handled, heq,
          ServerState.inHandFor, ServerState.enqueue]
      · simp [ServerLabel.enqueued, ServerLabel.handled, heq,
          ServerState.inHandFor, ServerState.enqueue]
  | notifyClosed conn hphase =>
      have hqueued := @ServerState.queuedFor_enqueue P
        { s with phase := Function.update s.phase conn (some .gone) } c
        (.connectionClosed conn)
      have hconn : (ServerEvent.connectionClosed conn).conn = conn := rfl
      rw [hconn] at hqueued
      rw [hqueued]
      by_cases heq : conn = c
      · simp [ServerLabel.enqueued, ServerLabel.handled, heq,
          ServerState.inHandFor, ServerState.queuedFor, ServerState.enqueue]
      · simp [ServerLabel.enqueued, ServerLabel.handled, heq,
          ServerState.inHandFor, ServerState.queuedFor, ServerState.enqueue]
  | shutdown conn =>
      simp only [ServerState.shutdown]
      split
      · simp [ServerLabel.enqueued, ServerLabel.handled,
          ServerState.inHandFor, ServerState.queuedFor]
      · simp [ServerLabel.enqueued, ServerLabel.handled]
  | beginEvent i job rest hidle hqueue =>
      by_cases hi : ServerState.shard P c = i
      · subst hi
        cases hevent : job.eventOf c with
        | none =>
            simp [ServerLabel.enqueued, ServerLabel.handled,
              ServerState.inHandFor, ServerState.queuedFor,
              ServerState.setRunning, hidle, hqueue, hevent]
        | some event =>
            simp [ServerLabel.enqueued, ServerLabel.handled,
              ServerState.inHandFor, ServerState.queuedFor,
              ServerState.setRunning, hidle, hqueue, hevent]
      · have hne : Thread.worker (ServerState.shard P c) ≠ .worker i := by
          simpa using hi
        simp [ServerLabel.enqueued, ServerLabel.handled,
          ServerState.inHandFor, ServerState.queuedFor,
          ServerState.setRunning, Function.update_of_ne hne,
          Function.update_of_ne hi]
  | beginScan hidle =>
      simp [ServerLabel.enqueued, ServerLabel.handled, ServerState.inHandFor,
        ServerState.queuedFor, ServerState.setRunning]
  | execute t job command next answer s'' hrunning heffect =>
      obtain ⟨hthreads, hqueues, -⟩ := heffect.threads
      by_cases ht : Thread.worker (ServerState.shard P c) = t
      · subst ht
        simp [ServerLabel.enqueued, ServerLabel.handled,
          ServerState.inHandFor, ServerState.queuedFor,
          ServerState.setRunning, hqueues, hrunning]
      · simp [ServerLabel.enqueued, ServerLabel.handled,
          ServerState.inHandFor, ServerState.queuedFor,
          ServerState.setRunning, hqueues, hthreads,
          Function.update_of_ne ht]
  | finish t job hrunning =>
      by_cases ht : Thread.worker (ServerState.shard P c) = t
      · subst ht
        simp [ServerLabel.enqueued, ServerLabel.handled,
          ServerState.inHandFor, ServerState.queuedFor,
          ServerState.setRunning, hrunning]
      · have hevent : job.eventOf c = none := by
          rw [Option.eq_none_iff_forall_ne_some]
          intro event hevent
          apply ht
          rw [← hs.running t job _ hrunning]
          exact (Job.thread_of_eventOf hevent).symm
        simp [ServerLabel.enqueued, ServerLabel.handled,
          ServerState.inHandFor, ServerState.queuedFor,
          ServerState.setRunning, hevent, Function.update_of_ne ht]
  | connect conn hphase =>
      simp [ServerLabel.enqueued, ServerLabel.handled, ServerState.inHandFor,
        ServerState.queuedFor]
  | disconnect conn hphase =>
      simp [ServerLabel.enqueued, ServerLabel.handled, ServerState.inHandFor,
        ServerState.queuedFor]

/-- A connection is gone once its closing has been queued. -/
theorem ServerStep.gone_iff (h : ServerStep P s l s') :
    s'.phase c = some .gone ↔
      s.phase c = some .gone ∨ l = .notifyClosed c := by
  have hother : ∀ conn phase, phase ≠ ConnPhase.gone →
      s.phase conn ≠ some .gone →
      (Function.update s.phase conn (some phase) c = some .gone ↔
        s.phase c = some .gone) := by
    intro conn phase hphase hconn
    rw [Function.update_apply]
    split
    · next heq =>
        rw [heq]
        simp [hphase, hconn]
    · exact Iff.rfl
  cases h with
  | connect conn hphase =>
      simpa using hother conn .up (by decide) (by simp [hphase])
  | disconnect conn hphase =>
      have hconn : s.phase conn ≠ some .gone := by
        rcases hphase with hphase | hphase
        · simp [hphase]
        · simp [hphase]
      simpa using hother conn .closed (by decide) hconn
  | shutdown conn =>
      simp only [ServerState.shutdown]
      split
      · next hup => simpa using hother conn .closing (by decide) (by simp [hup])
      · simp
  | notifyClosed conn hphase =>
      simp only [ServerState.enqueue, Function.update_apply,
        ServerLabel.notifyClosed.injEq]
      by_cases heq : c = conn
      · simp [heq]
      · simp [heq, Ne.symm heq]
  | receive conn envelope hphase => simp [ServerState.enqueue]
  | beginEvent i job rest hidle hqueue => simp [ServerState.setRunning]
  | beginScan hidle => simp [ServerState.setRunning]
  | execute t job command next answer s'' hrunning heffect =>
      simp only [ServerState.setRunning, reduceCtorEq, or_false]
      rcases heffect.phase c with hsame | ⟨hup, hclosing⟩
      · rw [hsame]
      · simp [hup, hclosing]
  | finish t job hrunning => simp [ServerState.setRunning]

/-- Nothing is queued for a connection that is gone. -/
theorem ServerStep.enqueued_cases (h : ServerStep P s l s')
    {event : ServerEvent} (hevent : l.enqueued c = some event) :
    s.phase c ≠ some .gone ∧
      ((∃ envelope, event = .envelope c envelope ∧ l ≠ .notifyClosed c) ∨
        event = .connectionClosed c ∧ l = .notifyClosed c) := by
  cases h with
  | receive conn envelope hphase =>
      simp only [ServerLabel.enqueued] at hevent
      split at hevent
      · next heq =>
          subst heq
          rw [Option.some.injEq] at hevent
          refine ⟨?_, .inl ⟨envelope, hevent.symm, by simp⟩⟩
          rcases hphase with hphase | hphase
          · simp [hphase]
          · simp [hphase]
      · cases hevent
  | notifyClosed conn hphase =>
      simp only [ServerLabel.enqueued] at hevent
      split at hevent
      · next heq =>
          subst heq
          rw [Option.some.injEq] at hevent
          exact ⟨by simp [hphase], .inr ⟨hevent.symm, rfl⟩⟩
      · cases hevent
  | _ => cases hevent

/-- A thread keeps its job until it is done with it. -/
theorem ServerStep.keepsJob (h : ServerStep P s l s') {t : Thread} {job : Job}
    {code : Handler Unit} (hrunning : s.running t = some (job, code)) :
    (∃ code', s'.running t = some (job, code')) ∨ l = .finish t job := by
  rcases h.goesOn hrunning with
    hsame | ⟨command, next, answer, -, -, hnext⟩ | ⟨-, hfinish⟩
  · exact .inl ⟨code, hsame⟩
  · exact .inl ⟨next answer, hnext⟩
  · exact .inr hfinish

/-- Only a login of the connection itself makes an entry for it. -/
theorem ServerStep.connStates_none (h : ServerStep P s l s')
    (hs : s.users.Consistent) (hnone : s.users.connStates c = none) :
    s'.users.connStates c = none ∨
      ∃ t job uid answer, l = .execute t job (.bindUser c uid) answer := by
  have hother : ∀ op : UserOp, op.conn ≠ some c →
      (s.users.apply op).connStates c = none := by
    intro op hconn
    rcases hs.apply_connStates_other op hconn with
      hsame | ⟨-, -, -, -, -, -, hdisplaced⟩
    · rw [hsame, hnone]
    · rw [hdisplaced, hnone]
      rfl
  cases h with
  | execute t job command next answer s'' hrunning heffect =>
      cases heffect with
      | bindUser conn uid now =>
          by_cases hconn : conn = c
          · subst hconn
            exact .inr ⟨t, job, uid, _, rfl⟩
          · left
            exact hother (.bindUser (some conn) uid now)
              (by simpa [UserOp.conn] using hconn)
      | updateHeartbeat conn now =>
          left
          by_cases hconn : conn = c
          · subst hconn
            simp only [ServerState.setRunning,
              UserStateService.updateHeartbeat, hnone]
          · exact hother (.updateHeartbeat (some conn) now)
              (by simpa [UserOp.conn] using hconn)
      | removeConnection conn =>
          left
          by_cases hconn : conn = c
          · subst hconn
            simp only [ServerState.setRunning,
              UserStateService.removeConnection, hnone]
          · exact hother (.removeConnection (some conn))
              (by simpa [UserOp.conn] using hconn)
      | sendEnvelope conn envelope =>
          left
          simp only [ServerState.setRunning, ServerState.sendEnvelope,
            ServerState.shutdown]
          split
          · split
            · exact hnone
            · exact hnone
          · exact hnone
      | _ => exact .inl hnone
  | shutdown conn =>
      left
      simp only [ServerState.shutdown]
      split
      · exact hnone
      · exact hnone
  | _ => exact .inl hnone

end Steps

/-- The events of a connection are its envelopes and then, once it is gone, its
closing. -/
theorem ServerRun.enqueuedFor_shape (e : ServerRun P) (c : Conn) :
    ∃ envelopes : List Envelope,
      e.enqueuedFor c = envelopes.map (.envelope c) ++
        if e.state.phase c = some .gone then [.connectionClosed c] else [] := by
  apply Execution.induct (P := fun e : ServerRun P =>
    ∃ envelopes : List Envelope,
      ServerRun.enqueuedFor e c = envelopes.map (ServerEvent.envelope c) ++
        if e.state.phase c = some .gone then [ServerEvent.connectionClosed c]
        else [])
  · intro e hnil hinit
    have hs : e.state = {} := hinit
    refine ⟨[], ?_⟩
    rw [ServerRun.enqueuedFor, Execution.log_init hnil, hs]
    simp
  · intro e e' l ih hnext
    have hstep : ServerStep P e.state l e'.state := hnext.1
    obtain ⟨envelopes, henvelopes⟩ := ih
    have hgone := @ServerStep.gone_iff P _ _ _ c hstep
    rw [ServerRun.enqueuedFor] at henvelopes ⊢
    rw [Execution.log_next hnext, henvelopes]
    cases hevent : l.enqueued c with
    | none =>
        have hother : l ≠ .notifyClosed c := by
          rintro rfl
          simp [ServerLabel.enqueued] at hevent
        refine ⟨envelopes, ?_⟩
        simp [hgone, hother]
    | some event =>
        obtain ⟨hphase, hcases⟩ := hstep.enqueued_cases hevent
        rcases hcases with ⟨envelope, rfl, hother⟩ | ⟨rfl, hclosed⟩
        · refine ⟨envelopes ++ [envelope], ?_⟩
          simp [hgone, hother, hphase]
        · refine ⟨envelopes, ?_⟩
          simp [hgone, hclosed, hphase]

/-- What was queued for a connection has been handled, is being handled, or is
waiting, in this order. -/
theorem ServerRun.enqueuedFor_eq (e : ServerRun P) (c : Conn) :
    e.enqueuedFor c =
      e.handledFor c ++ (e.state.inHandFor P c ++ e.state.queuedFor P c) := by
  apply Execution.induct (P := fun e : ServerRun P =>
    ServerRun.enqueuedFor e c = ServerRun.handledFor e c ++
      (e.state.inHandFor P c ++ e.state.queuedFor P c))
  · intro e hnil hinit
    have hs : e.state = {} := hinit
    rw [ServerRun.enqueuedFor, ServerRun.handledFor, Execution.log_init hnil,
      Execution.log_init hnil, hs]
    rfl
  · intro e e' l ih hnext
    have hevents := @ServerStep.events_next P _ _ _ c hnext.1
      (ServerRun.assigned e)
    rw [ServerRun.enqueuedFor, ServerRun.handledFor] at ih ⊢
    rw [Execution.log_next hnext, Execution.log_next hnext, ih,
      List.append_assoc, hevents, List.append_assoc]

/-- Once the closing is in hand or handled, no other event of the connection is
in hand or waiting. -/
theorem ServerRun.alone_of_closed (e : ServerRun P) {c : Conn}
    (h : .connectionClosed c ∈ e.handledFor c ++ e.state.inHandFor P c) :
    e.state.queuedFor P c = [] ∧
      ∀ event ∈ e.state.inHandFor P c, event = .connectionClosed c := by
  obtain ⟨envelopes, hshape⟩ := e.enqueuedFor_shape c
  have hsplit := e.enqueuedFor_eq c
  rw [hshape, ← List.append_assoc] at hsplit
  have hnot : ServerEvent.connectionClosed c ∉
      envelopes.map (ServerEvent.envelope c) := by
    simp
  have hgone : e.state.phase c = some .gone := by
    by_contra hphase
    rw [if_neg hphase, List.append_nil] at hsplit
    apply hnot
    rw [hsplit]
    exact List.mem_append_left _ h
  rw [if_pos hgone] at hsplit
  have hqueued : e.state.queuedFor P c = [] := by
    rcases List.eq_nil_or_concat (e.state.queuedFor P c) with
      hnil | ⟨front, last, hlast⟩
    · exact hnil
    · rw [hlast, List.concat_eq_append, ← List.append_assoc] at hsplit
      obtain ⟨hfront, -⟩ := List.append_singleton_inj.mp hsplit
      exact absurd (hfront ▸ List.mem_append_left _ h) hnot
  refine ⟨hqueued, ?_⟩
  intro event hevent
  have hone : e.state.inHandFor P c = [event] := by
    rw [ServerState.inHandFor, Option.mem_toList] at hevent
    rw [ServerState.inHandFor, hevent]
    rfl
  rw [hqueued, List.append_nil, hone] at hsplit
  exact (List.append_singleton_inj.mp hsplit).2.symm

/-! ## Closed connections stay away -/

/-- The job that removes a closed connection. -/
def Closes (job : Job) (c : Conn) : Prop :=
  job.task = .event (.connectionClosed c)

/-- A job that is at work on an event of a connection has it in hand. -/
theorem ServerRun.inHand_of_running {e : ServerRun P} {t : Thread} {job : Job}
    {code : Handler Unit} {c : Conn} {event : ServerEvent}
    (hrunning : e.state.running t = some (job, code))
    (hevent : job.eventOf c = some event) :
    event ∈ e.state.inHandFor P c := by
  have ht : job.thread P = t :=
    (ServerRun.assigned e).running t job code hrunning
  rw [Job.thread_of_eventOf hevent] at ht
  rw [ServerState.inHandFor, ht, hrunning]
  simp [hevent]

/-- What a job was issued for is in hand or handled. -/
theorem Did.inHand {e : ServerRun P} {job : Job} {command : Command}
    {answer : command.Answer} {s : ServerState} {c : Conn}
    {event : ServerEvent} (h : Did e job command answer s)
    (hevent : job.eventOf c = some event) :
    event ∈ e.handledFor c ++ e.state.inHandFor P c := by
  obtain ⟨t, hmem⟩ := h
  obtain ⟨e₁, e₂, -, hnext, hlater⟩ := Execution.exists_next_of_mem hmem
  have hstep : ServerStep P e₁.state (.execute t job command answer)
      e₂.state := hnext.1
  obtain ⟨next, s', -, -, hstate⟩ := hstep.execute_inv
  have hstart : (∃ code, e₂.state.running t = some (job, code)) ∨
      event ∈ ServerRun.handledFor e₂ c := by
    left
    refine ⟨next answer, ?_⟩
    rw [hstate]
    exact Function.update_self _ _ _
  have hend : (∃ code, e.state.running t = some (job, code)) ∨
      event ∈ ServerRun.handledFor e c := by
    apply hlater.preserves (P := fun e : ServerRun P =>
      (∃ code, e.state.running t = some (job, code)) ∨
        event ∈ ServerRun.handledFor e c) hstart
    intro e₃ e₄ l hbefore hnext'
    rw [ServerRun.handledFor] at hbefore ⊢
    rw [Execution.log_next hnext', List.mem_append]
    rcases hbefore with ⟨code, hrunning⟩ | hhandled
    · rcases ServerStep.keepsJob hnext'.1 hrunning with hkeeps | rfl
      · exact .inl hkeeps
      · refine .inr (.inr ?_)
        simp [ServerLabel.handled, hevent]
    · exact .inr (.inl hhandled)
  rw [List.mem_append]
  rcases hend with ⟨code, hrunning⟩ | hhandled
  · exact .inr (ServerRun.inHand_of_running hrunning hevent)
  · exact .inl hhandled

/-- The job that handles the closing has not begun its only command, or has
executed it. -/
theorem removes_of_running (e : ServerRun P) {t : Thread} {job : Job}
    {code : Handler Unit} {c : Conn} (hjob : Closes job c)
    (hrunning : e.state.running t = some (job, code)) :
    code = perform (Command.removeConnection c) ∨
      ∃ s, Did e job (.removeConnection c) () s := by
  revert t code
  apply Execution.induct (P := fun e : ServerRun P => ∀ {t : Thread}
    {code : Handler Unit}, e.state.running t = some (job, code) →
      code = perform (Command.removeConnection c) ∨
        ∃ s, Did e job (.removeConnection c) () s)
  · intro e _ hinit t code hrunning
    have hs : e.state = {} := hinit
    rw [hs] at hrunning
    cases hrunning
  · intro e e' l ih hnext t code hrunning
    rcases ServerStep.running hnext.1 hrunning with
      ⟨hsame, -⟩ | ⟨rfl, -⟩ | ⟨command, next, answer, hbefore, rfl, rfl⟩
    · rcases ih hsame with hcode | ⟨s, hdid⟩
      · exact .inl hcode
      · exact .inr ⟨s, hdid.mono hnext.later⟩
    · left
      rw [Closes] at hjob
      rw [Job.code, hjob]
      rfl
    · right
      rcases ih hbefore with hcode | ⟨s, hdid⟩
      · cases hcode
        exact ⟨e.state, t, hnext.mem_history⟩
      · exact ⟨s, hdid.mono hnext.later⟩

/-- Once the closing job has removed the connection, it is in neither table. -/
theorem connStates_of_removed (e : ServerRun P) {job : Job} {c : Conn}
    {s : ServerState} (hjob : Closes job c)
    (hdid : Did e job (.removeConnection c) () s) :
    e.state.users.connStates c = none := by
  have hevent : job.eventOf c = some (.connectionClosed c) :=
    Job.eventOf_eq_some.mpr ⟨hjob, rfl⟩
  obtain ⟨t, hmem⟩ := hdid
  obtain ⟨e₁, e₂, -, hnext, hlater⟩ := Execution.exists_next_of_mem hmem
  have hstep : ServerStep P e₁.state (.execute t job (.removeConnection c) ())
      e₂.state := hnext.1
  have hdid₂ : Did e₂ job (.removeConnection c) () e₁.state :=
    ⟨t, hnext.mem_history⟩
  have hstart : e₂.state.users.connStates c = none := by
    obtain ⟨next, s', -, heffect, hstate⟩ := hstep.execute_inv
    rw [hstate]
    cases heffect
    simp only [ServerState.setRunning, UserStateService.removeConnection]
    cases hc : e₁.state.users.connStates c with
    | none => exact hc
    | some state => exact Function.update_self _ _ _
  have hboth : Did e job (.removeConnection c) () e₁.state ∧
      e.state.users.connStates c = none := by
    apply hlater.preserves (P := fun e : ServerRun P =>
      Did e job (.removeConnection c) () e₁.state ∧
        e.state.users.connStates c = none) ⟨hdid₂, hstart⟩
    rintro e₃ e₄ l ⟨hdid₃, hnone⟩ hnext'
    refine ⟨hdid₃.mono hnext'.later, ?_⟩
    rcases ServerStep.connStates_none hnext'.1 (ServerRun.users_consistent e₃)
      hnone with hnone' | ⟨t', job', uid, answer, rfl⟩
    · exact hnone'
    · obtain ⟨envelope, hhandles⟩ : Justified job' e₃ (.bindUser c uid) :=
        justified_of_next hnext'
      have hstep' : ServerStep P e₃.state
          (.execute t' job' (.bindUser c uid) answer) e₄.state := hnext'.1
      obtain ⟨next, -, hrunning, -, -⟩ := hstep'.execute_inv
      have hlogin : job'.eventOf c = some (.envelope c envelope) :=
        Job.eventOf_eq_some.mpr ⟨hhandles, rfl⟩
      have hclosed := (ServerRun.alone_of_closed e₃ (hdid₃.inHand hevent)).2 _
        (ServerRun.inHand_of_running hrunning hlogin)
      cases hclosed
  exact hboth.2

/-- A connection whose closing has been handled is in neither table, from then
on. -/
theorem removed_of_handled {e e' : ServerRun P} {c : Conn}
    (h : .connectionClosed c ∈ e.handledFor c) (hlater : Execution.Later e e') :
    e'.state.users.connStates c = none ∧
      ∀ uid, e'.state.users.uidToConn uid ≠ some c := by
  obtain ⟨⟨s, l⟩, hmem, hl⟩ := Execution.mem_log.mp h
  obtain ⟨t, job, rfl⟩ : ∃ t job, l = .finish t job := by
    cases l with
    | finish t job => exact ⟨t, job, rfl⟩
    | _ => cases hl
  have hjob : Closes job c := (Job.eventOf_eq_some.mp hl).1
  obtain ⟨e₁, e₂, -, hnext, hlater₂⟩ := Execution.exists_next_of_mem hmem
  have hstep : ServerStep P e₁.state (.finish t job) e₂.state := hnext.1
  obtain ⟨s', hdid⟩ : ∃ s', Did e₁ job (.removeConnection c) () s' := by
    rcases removes_of_running e₁ hjob hstep.finish_inv.1 with hcode | hdid
    · cases hcode
    · exact hdid
  have hnone := connStates_of_removed e' hjob
    (hdid.mono ((hnext.later.trans hlater₂).trans hlater))
  refine ⟨hnone, ?_⟩
  intro uid honline
  obtain ⟨-, state, hstate, -⟩ :=
    ((ServerRun.users_consistent e').online uid c).mp honline
  rw [hnone] at hstate
  cases hstate

/-- When everything has been handled, nobody is online on a connection that is
gone. -/
theorem unbound_of_gone (e : ServerRun P) (hquiescent : e.state.Quiescent)
    {c : Conn} (hgone : e.state.phase c = some .gone) (uid : UInt64) :
    e.state.users.getConnByUid uid ≠ some c := by
  obtain ⟨envelopes, hshape⟩ := e.enqueuedFor_shape c
  have hsplit := e.enqueuedFor_eq c
  have hidle : e.state.inHandFor P c = [] ∧ e.state.queuedFor P c = [] := by
    rw [ServerState.inHandFor, ServerState.queuedFor, hquiescent.1,
      hquiescent.2]
    exact ⟨rfl, rfl⟩
  have hhandled : .connectionClosed c ∈ e.handledFor c := by
    rw [hidle.1, hidle.2, List.append_nil, List.append_nil] at hsplit
    rw [← hsplit, hshape, if_pos hgone]
    exact List.mem_append_right _ List.mem_cons_self
  exact (removed_of_handled hhandled (Execution.Later.refl e)).2 uid

/-- No ghost sessions.  In every run, what the network thread queues for a
connection is its envelopes and then its closing; the workers handle it in that
order, and never two events of the connection at a time.  Once the closing has
been handled, the connection is in neither table in any later state, and no
lookup finds it. -/
theorem no_ghost_sessions (e : ServerRun P) (c : Conn) :
    (∃ envelopes : List Envelope,
      e.enqueuedFor c = envelopes.map (.envelope c) ∨
      e.enqueuedFor c =
        envelopes.map (.envelope c) ++ [.connectionClosed c]) ∧
    e.enqueuedFor c =
      e.handledFor c ++ (e.state.inHandFor P c ++ e.state.queuedFor P c) ∧
    (∀ t t' job job' code code', e.state.running t = some (job, code) →
      e.state.running t' = some (job', code') →
      job.eventOf c ≠ none → job'.eventOf c ≠ none → t = t' ∧ job = job') ∧
    (∀ t job code event, e.state.running t = some (job, code) →
      job.eventOf c = some event → e.state.inHandFor P c = [event]) ∧
    (.connectionClosed c ∈ e.handledFor c → ∀ e' : ServerRun P,
      Execution.Later e e' →
      e'.state.users.connStates c = none ∧
      (∀ uid, e'.state.users.uidToConn uid ≠ some c) ∧
      ∀ e'' t job uid answer, Execution.Next e'
        (.execute t job (.getConnByUid uid) answer) e'' →
          answer ≠ some c) := by
  refine ⟨?_, e.enqueuedFor_eq c, ?_, ?_, ?_⟩
  · obtain ⟨envelopes, hshape⟩ := e.enqueuedFor_shape c
    refine ⟨envelopes, ?_⟩
    by_cases hgone : e.state.phase c = some .gone
    · rw [if_pos hgone] at hshape
      exact .inr hshape
    · rw [if_neg hgone, List.append_nil] at hshape
      exact .inl hshape
  · intro t t' job job' code code' hrunning hrunning' hevent hevent'
    obtain ⟨event, hevent⟩ := Option.ne_none_iff_exists'.mp hevent
    obtain ⟨event', hevent'⟩ := Option.ne_none_iff_exists'.mp hevent'
    have ht := (ServerRun.assigned e).running t job code hrunning
    have ht' := (ServerRun.assigned e).running t' job' code' hrunning'
    rw [Job.thread_of_eventOf hevent] at ht
    rw [Job.thread_of_eventOf hevent'] at ht'
    have hsame : t = t' := ht.symm.trans ht'
    subst hsame
    rw [hrunning, Option.some.injEq, Prod.mk.injEq] at hrunning'
    exact ⟨rfl, hrunning'.1⟩
  · intro t job code event hrunning hevent
    have hmem := ServerRun.inHand_of_running hrunning hevent
    rw [ServerState.inHandFor, Option.mem_toList] at hmem
    rw [ServerState.inHandFor, hmem]
    rfl
  · intro hclosed e' hlater
    obtain ⟨hnone, honline⟩ := removed_of_handled hclosed hlater
    refine ⟨hnone, honline, ?_⟩
    rintro e'' t job uid answer hnext rfl
    have hdid : Did e'' job (.getConnByUid uid) (some c) e'.state :=
      ⟨t, hnext.mem_history⟩
    exact honline uid hdid.getConnByUid

end ReliableDelivery
