import ReliableDelivery.Server.System

/-!
# What each job has done

Every job is run once, so what it has issued so far is a past of its own
program.  A rule about the past of a program then holds of every job in every
run.
-/

namespace ReliableDelivery

open MessageStore TransitionSystem Program

variable {P : Platform}

/-- The past of a server job. -/
abbrev ServerTrace := Trace Command Command.Answer

/-- The job has read this record of the message. -/
def HasRead (τ : ServerTrace) (id : UInt64) (record : MessageRecord) : Prop :=
  ∃ answer, ⟨.redis (.hmgetRecord id), answer⟩ ∈ τ ∧
    readRecordReply answer = some record

theorem HasRead.mono {τ τ' : ServerTrace} {id : UInt64}
    {record : MessageRecord} (h : HasRead τ id record) (hτ : τ <:+ τ') :
    HasRead τ' id record := by
  obtain ⟨answer, hmem, hread⟩ := h
  exact ⟨answer, hτ.mem hmem, hread⟩

/-- The job has neither begun nor done anything. -/
def Unstarted (e : ServerRun P) (job : Job) : Prop :=
  (∀ x ∈ e.history, ∀ a, x.2.action ≠ some (job, a)) ∧
    ∀ t code, e.state.running t ≠ some (job, code)

/-- Jobs are numbered in the order in which they come into being, and those in
a queue are unstarted. -/
structure Numbered (e : ServerRun P) : Prop where
  queued : ∀ i, ∀ job ∈ e.state.queues i,
    job.number < e.state.nextJob ∧ Unstarted e job
  nodup : ∀ i, (e.state.queues i).Nodup
  running : ∀ t job code, e.state.running t = some (job, code) →
    job.number < e.state.nextJob
  acted : ∀ x ∈ e.history, ∀ job a, x.2.action = some (job, a) →
    job.number < e.state.nextJob

section Steps

variable {s s' : ServerState} {l : ServerLabel}

/-- Numbers are only handed out. -/
theorem ServerStep.nextJob_le (h : ServerStep P s l s') :
    s.nextJob ≤ s'.nextJob := by
  cases h with
  | execute t job command next answer s'' hrunning heffect =>
      exact le_of_eq heffect.threads.2.2.symm
  | shutdown conn =>
      simp only [ServerState.shutdown]
      split
      · exact le_refl _
      · exact le_refl _
  | receive conn envelope hphase => exact Nat.le_succ _
  | notifyClosed conn hphase => exact Nat.le_succ _
  | beginScan hidle => exact Nat.le_succ _
  | _ => exact le_refl _

/-- What a queue holds after a step was there before, or is new. -/
theorem ServerStep.queues_cases (h : ServerStep P s l s')
    (i : Fin kBusinessWorkerCount) :
    s'.queues i <:+ s.queues i ∨
      ∃ event, s'.queues i = s.queues i ++ [⟨s.nextJob, .event event⟩] ∧
        s'.nextJob = s.nextJob + 1 := by
  have henqueue : ∀ (s₀ : ServerState) conn event,
      s₀.queues = s.queues → s₀.nextJob = s.nextJob →
      (s₀.enqueue P conn event).queues i <:+ s.queues i ∨
        ∃ event', (s₀.enqueue P conn event).queues i =
            s.queues i ++ [⟨s.nextJob, .event event'⟩] ∧
          (s₀.enqueue P conn event).nextJob = s.nextJob + 1 := by
    intro s₀ conn event hqueues hnext
    simp only [ServerState.enqueue, Function.update_apply, hqueues, hnext]
    split
    · next hi =>
        subst hi
        exact .inr ⟨event, rfl, trivial⟩
    · exact .inl (List.suffix_refl _)
  cases h with
  | receive conn envelope hphase => exact henqueue s _ _ rfl rfl
  | notifyClosed conn hphase => exact henqueue _ _ _ rfl rfl
  | beginEvent i' job rest hidle hqueue =>
      left
      simp only [ServerState.setRunning, Function.update_apply]
      split
      · next hi =>
          rw [hi, hqueue]
          exact List.suffix_cons _ _
      · exact List.suffix_refl _
  | execute t job command next answer s'' hrunning heffect =>
      left
      simp only [ServerState.setRunning, heffect.threads.2.1]
      exact List.suffix_refl _
  | shutdown conn =>
      left
      simp only [ServerState.shutdown]
      split
      · exact List.suffix_refl _
      · exact List.suffix_refl _
  | _ => exact .inl (List.suffix_refl _)

/-- A worker takes the first job of its queue; the delivery thread makes one. -/
theorem ServerStep.begin_inv {t : Thread} {job : Job}
    (h : ServerStep P s (.begin t job) s') :
    (∃ i, t = .worker i ∧ s.running t = none ∧
      s.queues i = job :: s'.queues i) ∨
    (t = .delivery ∧ s.running t = none ∧ job = ⟨s.nextJob, .scan⟩ ∧
      s'.nextJob = s.nextJob + 1 ∧ s'.queues = s.queues) := by
  cases h with
  | beginEvent i _ rest hidle hqueue =>
      left
      refine ⟨i, rfl, hidle, ?_⟩
      simp only [ServerState.setRunning, Function.update_self]
      exact hqueue
  | beginScan hidle => exact .inr ⟨rfl, hidle, rfl, rfl, rfl⟩

end Steps

/-- What a job does after a step. -/
theorem Unstarted.next {e e' : ServerRun P} {l : ServerLabel} {job : Job}
    (h : Unstarted e job) (hnext : Execution.Next e l e')
    (hbegin : ∀ t, l ≠ .begin t job) : Unstarted e' job := by
  have hstep : ServerStep P e.state l e'.state := hnext.1
  constructor
  · intro x hx a ha
    rw [hnext.2, List.mem_cons] at hx
    rcases hx with rfl | hx
    · obtain ⟨t, rfl⟩ := ServerLabel.action_eq_some.mp ha
      obtain ⟨next, -, hrunning, -, -⟩ := hstep.execute_inv
      exact h.2 t _ hrunning
    · exact h.1 x hx a ha
  · intro t code hrunning
    rcases hstep.running hrunning with
      ⟨hsame, -⟩ | ⟨-, hl⟩ | ⟨command, next, answer, hbefore, -, -⟩
    · exact h.2 t code hsame
    · exact hbegin t hl
    · exact h.2 t _ hbefore

/-- A number that has not been handed out is nobody's. -/
theorem Numbered.unstarted {e : ServerRun P} (h : Numbered e) {job : Job}
    (hjob : e.state.nextJob ≤ job.number) : Unstarted e job := by
  constructor
  · intro x hx a ha
    have := h.acted x hx job a ha
    omega
  · intro t code hrunning
    have := h.running t job code hrunning
    omega

theorem Numbered.next {e e' : ServerRun P} {l : ServerLabel} (h : Numbered e)
    (hnext : Execution.Next e l e') : Numbered e' := by
  have hstep : ServerStep P e.state l e'.state := hnext.1
  have hle := hstep.nextJob_le
  have hassigned := ServerRun.assigned e
  have hstays : ∀ i job, job ∈ e'.state.queues i → job ∈ e.state.queues i →
      ∀ t, l ≠ .begin t job := by
    rintro i job hafter hbefore t rfl
    rcases hstep.begin_inv with
      ⟨i', rfl, -, hqueue⟩ | ⟨-, -, rfl, -, -⟩
    · have hi : Thread.worker i = .worker i' := by
        rw [← hassigned.queued i job hbefore]
        exact hassigned.queued i' job (by rw [hqueue]; simp)
      cases hi
      have hnodup := h.nodup i
      rw [hqueue, List.nodup_cons] at hnodup
      exact hnodup.1 hafter
    · have := (h.queued i _ hbefore).1
      simp at this
  constructor
  · intro i job hjob
    rcases hstep.queues_cases i with hsuffix | ⟨event, hqueue, hnumber⟩
    · have hbefore := hsuffix.mem hjob
      obtain ⟨hlt, hunstarted⟩ := h.queued i job hbefore
      exact ⟨by omega, hunstarted.next hnext (hstays i job hjob hbefore)⟩
    · rw [hqueue, List.mem_append, List.mem_singleton] at hjob
      rcases hjob with hbefore | rfl
      · obtain ⟨hlt, hunstarted⟩ := h.queued i job hbefore
        refine ⟨by omega, hunstarted.next hnext (hstays i job ?_ hbefore)⟩
        rw [hqueue]
        exact List.mem_append_left _ hbefore
      · refine ⟨by simp only; omega, (h.unstarted (le_refl _)).next hnext ?_⟩
        rintro t rfl
        rcases hstep.begin_inv with ⟨i', -, -, hqueue'⟩ | ⟨-, -, heq, -, -⟩
        · have := (h.queued i' ⟨e.state.nextJob, .event event⟩
            (by rw [hqueue']; simp)).1
          simp at this
        · cases heq
  · intro i
    rcases hstep.queues_cases i with hsuffix | ⟨event, hqueue, -⟩
    · exact (h.nodup i).sublist hsuffix.sublist
    · rw [hqueue]
      refine List.nodup_append'.mpr ⟨h.nodup i, List.nodup_singleton _, ?_⟩
      rw [List.disjoint_singleton]
      intro hmem
      have := (h.queued i _ hmem).1
      simp at this
  · intro t job code hrunning
    rcases hstep.running hrunning with
      ⟨hsame, -⟩ | ⟨-, rfl⟩ | ⟨command, next, answer, hbefore, -, -⟩
    · have := h.running t job code hsame
      omega
    · rcases hstep.begin_inv with ⟨i, -, -, hqueue⟩ | ⟨-, -, rfl, hnumber, -⟩
      · have := (h.queued i job (by rw [hqueue]; simp)).1
        omega
      · simp only
        omega
    · have := h.running t job _ hbefore
      omega
  · intro x hx job a ha
    rw [hnext.2, List.mem_cons] at hx
    rcases hx with rfl | hx
    · obtain ⟨t, rfl⟩ := ServerLabel.action_eq_some.mp ha
      obtain ⟨next, -, hrunning, -, -⟩ := hstep.execute_inv
      have := h.running t job _ hrunning
      omega
    · have := h.acted x hx job a ha
      omega

theorem ServerRun.numbered (e : ServerRun P) : Numbered e := by
  apply Execution.induct (P := fun e : ServerRun P => Numbered e)
  · intro e hnil hinit
    have hs : e.state = {} := hinit
    constructor
    · rw [hs]
      intro i job hjob
      cases hjob
    · rw [hs]
      intro i
      exact List.nodup_nil
    · rw [hs]
      intro t job code hrunning
      cases hrunning
    · rw [hnil]
      intro x hx
      cases hx
  · intro e e' l h hnext
    exact h.next hnext

/-- A job that begins has no past. -/
theorem trace_of_begin {e e' : ServerRun P} {l : ServerLabel} {job : Job}
    (hnext : Execution.Next e l e') (hbegin : (serverThreads P).begins l job) :
    (serverThreads P).trace e' job = [] := by
  obtain ⟨t, rfl⟩ := hbegin
  have hstep : ServerStep P e.state (.begin t job) e'.state := hnext.1
  have hunstarted : Unstarted e job := by
    rcases hstep.begin_inv with ⟨i, -, -, hqueue⟩ | ⟨-, -, rfl, -, -⟩
    · exact ((ServerRun.numbered e).queued i job (by rw [hqueue]; simp)).2
    · exact (ServerRun.numbered e).unstarted (le_refl _)
  rw [List.eq_nil_iff_forall_not_mem]
  intro a ha
  obtain ⟨x, hx, hact⟩ := ThreadPool.mem_trace.mp ha
  rw [hnext.2, List.mem_cons] at hx
  rcases hx with rfl | hx
  · cases hact
  · exact hunstarted.1 x hx a hact

/-- A rule that a job's program follows from the start holds of what the job has
left to do, with the past it has in the run. -/
theorem follows_job {rule : Trace Command Command.Answer → Command → Prop}
    {post : Trace Command Command.Answer → Unit → Prop} {job : Job}
    (hcode : Follows rule post job.code []) (e : ServerRun P) {t : Thread}
    {code : Handler Unit} (hrunning : e.state.running t = some (job, code)) :
    Follows rule post code ((serverThreads P).trace e job) :=
  (serverThreads P).follows_running
    (fun _ _ _ hnext hbegin => trace_of_begin hnext hbegin) hcode e t code
    hrunning

end ReliableDelivery
