import ReliableDelivery.Server.ShardedThreadPool

/-!
# The tasks of the thread pool

Each worker works off a serial queue, and a key always goes to the same worker.  So
a task is executed once, and tasks with one key are executed in the order in which
they were pushed.  When `stop` returns the queues are empty, since a worker leaves
only with an empty queue and nothing is pushed once `stopped_` is set.
-/

namespace ReliableDelivery

open TransitionSystem

namespace PoolLabel

variable {n : ℕ}

/-- The task that is put in a queue; its `submit` is bound to return true. -/
def accepted : PoolLabel n → Option PoolTask
  | push _ _ task => some task
  | _ => none

/-- The task whose `submit` returns true. -/
def acknowledged : PoolLabel n → Option PoolTask
  | notifyOne _ _ task => some task
  | _ => none

/-- The task whose `submit` returns false. -/
def refused : PoolLabel n → Option PoolTask
  | refuse _ task => some task
  | refuseLocked _ _ task => some task
  | _ => none

/-- The task whose execution begins. -/
def begun : PoolLabel n → Option PoolTask
  | take _ task => some task
  | _ => none

/-- The task whose execution ends. -/
def finished : PoolLabel n → Option PoolTask
  | finish _ task => some task
  | _ => none

theorem accepted_eq_some {l : PoolLabel n} {task : PoolTask} :
    l.accepted = some task ↔ ∃ t w, l = push t w task := by
  cases l <;> simp [accepted]

theorem begun_eq_some {l : PoolLabel n} {task : PoolTask} :
    l.begun = some task ↔ ∃ w, l = take w task := by
  cases l <;> simp [begun]

theorem finished_eq_some {l : PoolLabel n} {task : PoolTask} :
    l.finished = some task ↔ ∃ w, l = finish w task := by
  cases l <;> simp [finished]

/-- What a step means for the queue of a worker. -/
def onQueue (w : Fin n) : PoolLabel n → Option (SerialQueue.Label PoolTask)
  | push _ w' task => if w' = w then some (.accept task) else none
  | take w' task => if w' = w then some (.begin task) else none
  | finish w' task => if w' = w then some (.finish task) else none
  | _ => none

end PoolLabel

open PoolLabel

/-! ## The queue of a worker -/

/-- The task that is executed. -/
def WorkerPhase.current : WorkerPhase → Option PoolTask
  | running task => some task
  | _ => none

theorem WorkerPhase.current_eq_some {phase : WorkerPhase} {task : PoolTask} :
    phase.current = some task ↔ phase = .running task := by
  cases phase <;> simp [current]

@[simp] theorem WorkerPhase.current_wake (phase : WorkerPhase) :
    phase.wake.current = phase.current := by
  cases phase <;> rfl

namespace PoolState

variable {n : ℕ} {s s' : PoolState n}

def queue (s : PoolState n) (w : Fin n) : SerialQueue PoolTask where
  waiting := s.tasks w
  current := (s.phase w).current

theorem queue_setPhase (w w' : Fin n) {phase : WorkerPhase}
    (hphase : phase.current = (s.phase w').current) :
    (s.setPhase w' phase).queue w = s.queue w := by
  rw [queue, queue, phase_setPhase, tasks_setPhase]
  split
  · next heq => rw [hphase, heq]
  · rfl

theorem queue_setTasks {w w' : Fin n} (hother : w' ≠ w)
    (tasks : List PoolTask) : (s.setTasks w' tasks).queue w = s.queue w := by
  rw [queue, queue, phase_setTasks, tasks_setTasks, if_neg (Ne.symm hother)]

theorem queue_step {l : PoolLabel n} {w : Fin n} (hstep : s.step l = some s') :
    match l.onQueue w with
    | some k => (SerialQueue.system PoolTask).step (s.queue w) k (s'.queue w)
    | none => s'.queue w = s.queue w := by
  cases l <;>
    simp only [step, Option.ite_none_right_eq_some, Option.some.injEq] at hstep <;>
    obtain ⟨hguard, rfl⟩ := hstep <;> simp only [onQueue]
  case start =>
    split
    · rfl
    · rfl
  case spawn w' => exact queue_setPhase w w' (by rw [hguard.2]; rfl)
  case started => rfl
  case stop => rfl
  case notifyAll w' => exact queue_setPhase w w' (by simp)
  case notified => rfl
  case join w' =>
    apply queue_setPhase w w'
    rcases hguard.2 with hphase | hphase
    · rw [hphase]
    · rw [hphase]
      rfl
  case joined => rfl
  case call => rfl
  case check => rfl
  case refuse => rfl
  case refuseLocked => rfl
  case push t w' task =>
    by_cases hw : w' = w
    · subst hw
      rw [if_pos rfl]
      simp [SerialQueue.system, queue]
    · rw [if_neg hw]
      exact queue_setTasks hw _
  case notifyOne t w' task => exact queue_setPhase w w' (by simp)
  case evaluate w' =>
    apply queue_setPhase w w'
    rw [hguard]
    split
    · rfl
    · rfl
  case block w' => exact queue_setPhase w w' (by rw [hguard]; rfl)
  case leave w' => exact queue_setPhase w w' (by rw [hguard.1]; rfl)
  case take w' task =>
    by_cases hw : w' = w
    · subst hw
      rw [if_pos rfl]
      obtain ⟨rest, hrest⟩ : ∃ rest, s.tasks w' = task :: rest :=
        ⟨_, List.eq_cons_of_mem_head? hguard.2.2⟩
      simp [SerialQueue.system, queue, hguard.1, WorkerPhase.current, hrest]
    · rw [if_neg hw]
      rw [← queue_setTasks (s := s) hw (s.tasks w').tail, queue, queue,
        phase_setPhase, tasks_setPhase, if_neg (Ne.symm hw)]
  case finish w' task =>
    by_cases hw : w' = w
    · subst hw
      rw [if_pos rfl]
      simp [SerialQueue.system, queue, hguard, WorkerPhase.current]
    · rw [if_neg hw]
      rw [queue, queue, phase_setPhase, tasks_setPhase, if_neg (Ne.symm hw)]

end PoolState

/-- Each worker of the pool works off a serial queue. -/
def poolQueue (n : ℕ) (w : Fin n) :
    Projection (pool n) (SerialQueue.system PoolTask) where
  onState s := s.queue w
  onLabel := onQueue w
  init s hinit := by rw [show s = {} from hinit]; rfl
  step s l s' k hstep hl := by
    have h := PoolState.queue_step (w := w) hstep
    rw [hl] at h
    exact h
  stutter s l s' hstep hl := by
    have h := PoolState.queue_step (w := w) hstep
    rw [hl] at h
    exact h

/-! ## Calls of `submit` -/

/-- What a step does to the calls of `submit`. -/
inductive PoolState.CallsStep {n : ℕ} (s s' : PoolState n) (l : PoolLabel n) :
    Prop where
  | same (hcalls : s'.calls = s.calls) (hnext : s'.nextTask = s.nextTask)
      (haccepted : l.accepted = none) (hrefused : l.refused = none)
      (hacknowledged : l.acknowledged = none)
  | call (t : ℕ) (key : UInt64) (hcall : s.calls t = none)
      (hcalls : s'.calls =
        Function.update s.calls t (some (.called, ⟨s.nextTask, key⟩)))
      (hnext : s'.nextTask = s.nextTask + 1)
      (haccepted : l.accepted = none) (hrefused : l.refused = none)
      (hacknowledged : l.acknowledged = none)
  | check (t : ℕ) (task : PoolTask) (hcall : s.calls t = some (.called, task))
      (hcalls : s'.calls = Function.update s.calls t (some (.checked, task)))
      (hnext : s'.nextTask = s.nextTask)
      (haccepted : l.accepted = none) (hrefused : l.refused = none)
      (hacknowledged : l.acknowledged = none)
  | push (t : ℕ) (task : PoolTask) (hcall : s.calls t = some (.checked, task))
      (hcalls : s'.calls = Function.update s.calls t (some (.pushed, task)))
      (hnext : s'.nextTask = s.nextTask)
      (haccepted : l.accepted = some task) (hrefused : l.refused = none)
      (hacknowledged : l.acknowledged = none)
  | refuse (t : ℕ) (phase : SubmitPhase) (task : PoolTask)
      (hphase : phase ≠ .pushed) (hcall : s.calls t = some (phase, task))
      (hcalls : s'.calls = Function.update s.calls t none)
      (hnext : s'.nextTask = s.nextTask)
      (haccepted : l.accepted = none) (hrefused : l.refused = some task)
      (hacknowledged : l.acknowledged = none)
  | acknowledge (t : ℕ) (task : PoolTask)
      (hlabel : ∃ w, l = .notifyOne t w task)
      (hcall : s.calls t = some (.pushed, task))
      (hcalls : s'.calls = Function.update s.calls t none)
      (hnext : s'.nextTask = s.nextTask)
      (haccepted : l.accepted = none) (hrefused : l.refused = none)
      (hacknowledged : l.acknowledged = some task)

theorem PoolState.calls_step {n : ℕ} {s s' : PoolState n} {l : PoolLabel n}
    (hstep : s.step l = some s') : s.CallsStep s' l := by
  cases l <;>
    simp only [step, Option.ite_none_right_eq_some, Option.some.injEq] at hstep <;>
    obtain ⟨hguard, rfl⟩ := hstep
  case start =>
    split
    · exact .same rfl rfl rfl rfl rfl
    · exact .same rfl rfl rfl rfl rfl
  case call t key => exact .call t key hguard rfl rfl rfl rfl rfl
  case check t task => exact .check t task hguard.1 rfl rfl rfl rfl rfl
  case refuse t task =>
    exact .refuse t .called task (by decide) hguard.1 rfl rfl rfl rfl rfl
  case refuseLocked t w task =>
    exact .refuse t .checked task (by decide) hguard.1 rfl rfl rfl rfl rfl
  case push t w task => exact .push t task hguard.1 rfl rfl rfl rfl rfl
  case notifyOne t w task =>
    exact .acknowledge t task ⟨w, rfl⟩ hguard.1 rfl rfl rfl rfl rfl
  all_goals exact .same rfl rfl rfl rfl rfl

/-- What the calls of `submit` have come to. -/
structure PoolRun.Accounted {n : ℕ} (e : PoolRun n) : Prop where
  number_lt : ∀ t phase task, e.state.calls t = some (phase, task) →
    task.number < e.state.nextTask
  alone : ∀ t t' phase phase' task, e.state.calls t = some (phase, task) →
    e.state.calls t' = some (phase', task) → t = t'
  accepted_lt : ∀ task ∈ e.log accepted, task.number < e.state.nextTask
  accepted_pushed : ∀ task ∈ e.log accepted, ∀ t phase,
    e.state.calls t = some (phase, task) → phase = .pushed
  nodup : (e.log accepted).Nodup
  refused_lt : ∀ task ∈ e.log refused, task.number < e.state.nextTask
  refused_gone : ∀ task ∈ e.log refused, ∀ t phase,
    e.state.calls t ≠ some (phase, task)
  refused_alone : ∀ task ∈ e.log refused, task ∉ e.log accepted
  pushed : ∀ t task, e.state.calls t = some (.pushed, task) →
    task ∈ e.log accepted
  acknowledged : ∀ task ∈ e.log acknowledged, task ∈ e.log accepted

section Accounted

variable {n : ℕ} {e e' : PoolRun n} {l : PoolLabel n}

theorem log_same {f : PoolLabel n → Option PoolTask} (hnext : e.Next l e')
    (hf : f l = none) : e'.log f = e.log f := by
  rw [Execution.log_next hnext, hf, Option.toList_none, List.append_nil]

theorem log_snoc {f : PoolLabel n → Option PoolTask} {task : PoolTask}
    (hnext : e.Next l e') (hf : f l = some task) :
    e'.log f = e.log f ++ [task] := by
  rw [Execution.log_next hnext, hf, Option.toList_some]

/-- A call that is still there after another one has changed. -/
theorem call_of_update {calls calls' : ℕ → Option (SubmitPhase × PoolTask)}
    {t t' : ℕ} {call : Option (SubmitPhase × PoolTask)}
    {x : SubmitPhase × PoolTask} (hcalls : calls' = Function.update calls t call)
    (h : calls' t' = some x) :
    t' = t ∧ call = some x ∨ t' ≠ t ∧ calls t' = some x := by
  rw [hcalls, Function.update_apply] at h
  split at h
  · next heq => exact .inl ⟨heq, h⟩
  · next hne => exact .inr ⟨hne, h⟩

/-- Nothing new is told, and the calls are of the tasks they were of. -/
theorem PoolRun.Accounted.of_same (h : e.Accounted) (hnext : e.Next l e')
    (haccepted : l.accepted = none) (hrefused : l.refused = none)
    (hacknowledged : l.acknowledged = none)
    (hcalls : ∀ t phase task, e'.state.calls t = some (phase, task) →
      ∃ phase', e.state.calls t = some (phase', task) ∧
        (phase' = .pushed ↔ phase = .pushed))
    (hnumber : e'.state.nextTask = e.state.nextTask) : e'.Accounted where
  number_lt t phase task hcall := by
    obtain ⟨phase', hcall', -⟩ := hcalls t phase task hcall
    rw [hnumber]
    exact h.number_lt t phase' task hcall'
  alone t t' phase phase' task hcall hcall' := by
    obtain ⟨_, hbefore, -⟩ := hcalls t phase task hcall
    obtain ⟨_, hbefore', -⟩ := hcalls t' phase' task hcall'
    exact h.alone t t' _ _ task hbefore hbefore'
  accepted_lt := by
    rw [log_same hnext haccepted, hnumber]
    exact h.accepted_lt
  accepted_pushed task htask t phase hcall := by
    rw [log_same hnext haccepted] at htask
    obtain ⟨phase', hcall', hiff⟩ := hcalls t phase task hcall
    exact hiff.mp (h.accepted_pushed task htask t phase' hcall')
  nodup := by
    rw [log_same hnext haccepted]
    exact h.nodup
  refused_lt := by
    rw [log_same hnext hrefused, hnumber]
    exact h.refused_lt
  refused_gone task htask t phase hcall := by
    rw [log_same hnext hrefused] at htask
    obtain ⟨phase', hcall', -⟩ := hcalls t phase task hcall
    exact h.refused_gone task htask t phase' hcall'
  refused_alone := by
    rw [log_same hnext hrefused, log_same hnext haccepted]
    exact h.refused_alone
  pushed t task hcall := by
    obtain ⟨phase', hcall', hiff⟩ := hcalls t .pushed task hcall
    rw [hiff.mpr rfl] at hcall'
    rw [log_same hnext haccepted]
    exact h.pushed t task hcall'
  acknowledged := by
    rw [log_same hnext haccepted, log_same hnext hacknowledged]
    exact h.acknowledged

/-- A task that is not in the calls yet has the next number. -/
theorem PoolRun.Accounted.call (h : e.Accounted) (hnext : e.Next l e') {t : ℕ}
    {key : UInt64}
    (hcalls : e'.state.calls = Function.update e.state.calls t
      (some (.called, ⟨e.state.nextTask, key⟩)))
    (hnumber : e'.state.nextTask = e.state.nextTask + 1)
    (haccepted : l.accepted = none) (hrefused : l.refused = none)
    (hacknowledged : l.acknowledged = none) : e'.Accounted where
  number_lt t' phase task hcall := by
    rw [hnumber]
    rcases call_of_update hcalls hcall with ⟨-, heq⟩ | ⟨-, hcall⟩
    · cases heq
      exact Nat.lt_succ_self _
    · exact Nat.lt_succ_of_lt (h.number_lt t' phase task hcall)
  alone t₁ t₂ phase₁ phase₂ task hcall₁ hcall₂ := by
    rcases call_of_update hcalls hcall₁ with ⟨rfl, heq₁⟩ | ⟨-, hcall₁⟩
    · rcases call_of_update hcalls hcall₂ with ⟨rfl, -⟩ | ⟨-, hcall₂⟩
      · rfl
      · cases heq₁
        exact absurd (h.number_lt _ _ _ hcall₂) (Nat.lt_irrefl _)
    · rcases call_of_update hcalls hcall₂ with ⟨rfl, heq₂⟩ | ⟨-, hcall₂⟩
      · cases heq₂
        exact absurd (h.number_lt _ _ _ hcall₁) (Nat.lt_irrefl _)
      · exact h.alone _ _ _ _ _ hcall₁ hcall₂
  accepted_lt task htask := by
    rw [log_same hnext haccepted] at htask
    rw [hnumber]
    exact Nat.lt_succ_of_lt (h.accepted_lt task htask)
  accepted_pushed task htask t' phase hcall := by
    rw [log_same hnext haccepted] at htask
    rcases call_of_update hcalls hcall with ⟨-, heq⟩ | ⟨-, hcall⟩
    · cases heq
      exact absurd (h.accepted_lt _ htask) (Nat.lt_irrefl _)
    · exact h.accepted_pushed task htask t' phase hcall
  nodup := by
    rw [log_same hnext haccepted]
    exact h.nodup
  refused_lt task htask := by
    rw [log_same hnext hrefused] at htask
    rw [hnumber]
    exact Nat.lt_succ_of_lt (h.refused_lt task htask)
  refused_gone task htask t' phase hcall := by
    rw [log_same hnext hrefused] at htask
    rcases call_of_update hcalls hcall with ⟨-, heq⟩ | ⟨-, hcall⟩
    · cases heq
      exact absurd (h.refused_lt _ htask) (Nat.lt_irrefl _)
    · exact h.refused_gone task htask t' phase hcall
  refused_alone := by
    rw [log_same hnext hrefused, log_same hnext haccepted]
    exact h.refused_alone
  pushed t' task hcall := by
    rw [log_same hnext haccepted]
    rcases call_of_update hcalls hcall with ⟨-, heq⟩ | ⟨-, hcall⟩
    · cases heq
    · exact h.pushed t' task hcall
  acknowledged := by
    rw [log_same hnext haccepted, log_same hnext hacknowledged]
    exact h.acknowledged

/-- A call that is accepted has not been accepted before. -/
theorem PoolRun.Accounted.push (h : e.Accounted) (hnext : e.Next l e') {t : ℕ}
    {task : PoolTask} (hcall : e.state.calls t = some (.checked, task))
    (hcalls : e'.state.calls =
      Function.update e.state.calls t (some (.pushed, task)))
    (hnumber : e'.state.nextTask = e.state.nextTask)
    (haccepted : l.accepted = some task) (hrefused : l.refused = none)
    (hacknowledged : l.acknowledged = none) : e'.Accounted := by
  have hfresh : task ∉ e.log accepted := by
    intro hmem
    cases h.accepted_pushed task hmem t .checked hcall
  constructor
  case number_lt =>
    intro t' phase task' hcall'
    rw [hnumber]
    rcases call_of_update hcalls hcall' with ⟨-, heq⟩ | ⟨-, hcall'⟩
    · cases heq
      exact h.number_lt t _ _ hcall
    · exact h.number_lt t' phase task' hcall'
  case alone =>
    intro t₁ t₂ phase₁ phase₂ task' hcall₁ hcall₂
    rcases call_of_update hcalls hcall₁ with ⟨rfl, heq₁⟩ | ⟨-, hcall₁⟩
    · cases heq₁
      rcases call_of_update hcalls hcall₂ with ⟨rfl, -⟩ | ⟨-, hcall₂⟩
      · rfl
      · exact h.alone _ _ _ _ _ hcall hcall₂
    · rcases call_of_update hcalls hcall₂ with ⟨rfl, heq₂⟩ | ⟨-, hcall₂⟩
      · cases heq₂
        exact h.alone _ _ _ _ _ hcall₁ hcall
      · exact h.alone _ _ _ _ _ hcall₁ hcall₂
  case accepted_lt =>
    intro task' htask
    rw [log_snoc hnext haccepted, List.mem_append, List.mem_singleton] at htask
    rw [hnumber]
    rcases htask with htask | rfl
    · exact h.accepted_lt task' htask
    · exact h.number_lt t _ _ hcall
  case accepted_pushed =>
    intro task' htask t' phase hcall'
    rw [log_snoc hnext haccepted, List.mem_append, List.mem_singleton] at htask
    rcases call_of_update hcalls hcall' with ⟨-, heq⟩ | ⟨hne, hcall'⟩
    · cases heq
      rfl
    · rcases htask with htask | rfl
      · exact h.accepted_pushed task' htask t' phase hcall'
      · exact absurd (h.alone _ _ _ _ _ hcall' hcall) hne
  case nodup =>
    rw [log_snoc hnext haccepted, ← List.concat_eq_append]
    exact h.nodup.concat hfresh
  case refused_lt =>
    rw [log_same hnext hrefused, hnumber]
    exact h.refused_lt
  case refused_gone =>
    intro task' htask t' phase hcall'
    rw [log_same hnext hrefused] at htask
    rcases call_of_update hcalls hcall' with ⟨-, heq⟩ | ⟨-, hcall'⟩
    · cases heq
      exact h.refused_gone _ htask t _ hcall
    · exact h.refused_gone task' htask t' phase hcall'
  case refused_alone =>
    intro task' htask hmem
    rw [log_same hnext hrefused] at htask
    rw [log_snoc hnext haccepted, List.mem_append, List.mem_singleton] at hmem
    rcases hmem with hmem | rfl
    · exact h.refused_alone task' htask hmem
    · exact h.refused_gone _ htask t _ hcall
  case pushed =>
    intro t' task' hcall'
    rw [log_snoc hnext haccepted, List.mem_append, List.mem_singleton]
    rcases call_of_update hcalls hcall' with ⟨-, heq⟩ | ⟨-, hcall'⟩
    · cases heq
      exact .inr rfl
    · exact .inl (h.pushed t' task' hcall')
  case acknowledged =>
    intro task' htask
    rw [log_same hnext hacknowledged] at htask
    rw [log_snoc hnext haccepted]
    exact List.mem_append_left _ (h.acknowledged task' htask)

/-- A call that returns; `hfate` says with which answer. -/
theorem PoolRun.Accounted.over (h : e.Accounted) (hnext : e.Next l e') {t : ℕ}
    {phase : SubmitPhase} {task : PoolTask}
    (hcall : e.state.calls t = some (phase, task))
    (hcalls : e'.state.calls = Function.update e.state.calls t none)
    (hnumber : e'.state.nextTask = e.state.nextTask)
    (haccepted : l.accepted = none)
    (hfate : phase ≠ .pushed ∧ l.refused = some task ∧ l.acknowledged = none ∨
      phase = .pushed ∧ l.refused = none ∧ l.acknowledged = some task) :
    e'.Accounted := by
  have hstill : ∀ {t' phase' task'},
      e'.state.calls t' = some (phase', task') →
        t' ≠ t ∧ e.state.calls t' = some (phase', task') := by
    intro t' phase' task' hcall'
    rcases call_of_update hcalls hcall' with ⟨-, heq⟩ | hother
    · cases heq
    · exact hother
  have hrefused : ∀ task', task' ∈ e'.log refused →
      task' ∈ e.log refused ∨ phase ≠ .pushed ∧ task' = task := by
    intro task' htask
    rcases hfate with ⟨hphase, hrefused, -⟩ | ⟨-, hrefused, -⟩
    · rw [log_snoc hnext hrefused, List.mem_append, List.mem_singleton] at htask
      exact htask.imp_right fun heq => ⟨hphase, heq⟩
    · rw [log_same hnext hrefused] at htask
      exact .inl htask
  constructor
  case number_lt =>
    intro t' phase' task' hcall'
    rw [hnumber]
    exact h.number_lt _ _ _ (hstill hcall').2
  case alone =>
    intro t₁ t₂ phase₁ phase₂ task' hcall₁ hcall₂
    exact h.alone _ _ _ _ _ (hstill hcall₁).2 (hstill hcall₂).2
  case accepted_lt =>
    rw [log_same hnext haccepted, hnumber]
    exact h.accepted_lt
  case accepted_pushed =>
    intro task' htask t' phase' hcall'
    rw [log_same hnext haccepted] at htask
    exact h.accepted_pushed task' htask t' phase' (hstill hcall').2
  case nodup =>
    rw [log_same hnext haccepted]
    exact h.nodup
  case refused_lt =>
    intro task' htask
    rw [hnumber]
    rcases hrefused task' htask with htask | ⟨-, rfl⟩
    · exact h.refused_lt task' htask
    · exact h.number_lt _ _ _ hcall
  case refused_gone =>
    intro task' htask t' phase' hcall'
    obtain ⟨hne, hcall'⟩ := hstill hcall'
    rcases hrefused task' htask with htask | ⟨-, rfl⟩
    · exact h.refused_gone task' htask t' phase' hcall'
    · exact hne (h.alone _ _ _ _ _ hcall' hcall)
  case refused_alone =>
    intro task' htask hmem
    rw [log_same hnext haccepted] at hmem
    rcases hrefused task' htask with htask | ⟨hphase, rfl⟩
    · exact h.refused_alone task' htask hmem
    · exact hphase (h.accepted_pushed _ hmem t phase hcall)
  case pushed =>
    intro t' task' hcall'
    rw [log_same hnext haccepted]
    exact h.pushed t' task' (hstill hcall').2
  case acknowledged =>
    intro task' htask
    rw [log_same hnext haccepted]
    rcases hfate with ⟨-, -, hacknowledged⟩ | ⟨hphase, -, hacknowledged⟩
    · rw [log_same hnext hacknowledged] at htask
      exact h.acknowledged task' htask
    · rw [log_snoc hnext hacknowledged, List.mem_append,
        List.mem_singleton] at htask
      rcases htask with htask | rfl
      · exact h.acknowledged task' htask
      · rw [hphase] at hcall
        exact h.pushed t task' hcall

theorem PoolRun.Accounted.next (h : e.Accounted) (hnext : e.Next l e') :
    e'.Accounted := by
  cases PoolState.calls_step hnext.1 with
  | same hcalls hnumber haccepted hrefused hacknowledged =>
      refine h.of_same hnext haccepted hrefused hacknowledged ?_ hnumber
      intro t phase task hcall
      rw [hcalls] at hcall
      exact ⟨phase, hcall, Iff.rfl⟩
  | call t key hcall hcalls hnumber haccepted hrefused hacknowledged =>
      exact h.call hnext hcalls hnumber haccepted hrefused hacknowledged
  | check t task hcall hcalls hnumber haccepted hrefused hacknowledged =>
      refine h.of_same hnext haccepted hrefused hacknowledged ?_ hnumber
      intro t' phase task' hcall'
      rcases call_of_update hcalls hcall' with ⟨rfl, heq⟩ | ⟨-, hcall'⟩
      · cases heq
        exact ⟨.called, hcall, by decide⟩
      · exact ⟨phase, hcall', Iff.rfl⟩
  | push t task hcall hcalls hnumber haccepted hrefused hacknowledged =>
      exact h.push hnext hcall hcalls hnumber haccepted hrefused hacknowledged
  | refuse t phase task hphase hcall hcalls hnumber haccepted hrefused
      hacknowledged =>
      exact h.over hnext hcall hcalls hnumber haccepted
        (.inl ⟨hphase, hrefused, hacknowledged⟩)
  | acknowledge t task hlabel hcall hcalls hnumber haccepted hrefused
      hacknowledged =>
      exact h.over hnext hcall hcalls hnumber haccepted
        (.inr ⟨rfl, hrefused, hacknowledged⟩)

end Accounted

theorem PoolRun.accounted {n : ℕ} (e : PoolRun n) : e.Accounted := by
  apply Execution.induct (P := fun e : PoolRun n => PoolRun.Accounted e)
  · intro e hnil hinit
    have hs : e.state = {} := hinit
    constructor <;> simp [hs, Execution.log_init hnil]
  · intro e e' l ih hnext
    exact ih.next hnext

/-! ## Execution -/

section Lanes

variable {n : ℕ} {e e' : PoolRun n} {task : PoolTask} {w : Fin n}

/-- The run of a worker's queue. -/
def PoolRun.lane (e : PoolRun n) (w : Fin n) :
    (SerialQueue.system PoolTask).Execution :=
  (poolQueue n w).onRun e

theorem onQueue_accepted_iff {l : PoolLabel n} :
    (l.onQueue w).bind SerialQueue.Label.accepted = some task ↔
      ∃ t, l = .push t w task := by
  cases l <;> simp [onQueue]
  case push t w' task' =>
    split
    · simp_all [SerialQueue.Label.accepted]
    · simp_all
  case take w' task' => split <;> simp [SerialQueue.Label.accepted]
  case finish w' task' => split <;> simp [SerialQueue.Label.accepted]

theorem onQueue_begun_iff {l : PoolLabel n} :
    (l.onQueue w).bind SerialQueue.Label.begun = some task ↔
      l = .take w task := by
  cases l <;> simp [onQueue]
  case push t w' task' => split <;> simp [SerialQueue.Label.begun]
  case take w' task' =>
    split
    · simp_all [SerialQueue.Label.begun]
    · simp_all
  case finish w' task' => split <;> simp [SerialQueue.Label.begun]

theorem onQueue_finished_iff {l : PoolLabel n} :
    (l.onQueue w).bind SerialQueue.Label.finished = some task ↔
      l = .finish w task := by
  cases l <;> simp [onQueue]
  case push t w' task' => split <;> simp [SerialQueue.Label.finished]
  case take w' task' => split <;> simp [SerialQueue.Label.finished]
  case finish w' task' =>
    split
    · simp_all [SerialQueue.Label.finished]
    · simp_all

theorem mem_lane_accepted : task ∈ (e.lane w).log SerialQueue.Label.accepted ↔
    ∃ x ∈ e.history, ∃ t, x.2 = .push t w task := by
  rw [PoolRun.lane, Projection.log_onRun, Execution.mem_log]
  simp only [poolQueue, onQueue_accepted_iff]

theorem mem_lane_begun : task ∈ (e.lane w).log SerialQueue.Label.begun ↔
    ∃ x ∈ e.history, x.2 = .take w task := by
  rw [PoolRun.lane, Projection.log_onRun, Execution.mem_log]
  simp only [poolQueue, onQueue_begun_iff]

theorem mem_lane_finished : task ∈ (e.lane w).log SerialQueue.Label.finished ↔
    ∃ x ∈ e.history, x.2 = .finish w task := by
  rw [PoolRun.lane, Projection.log_onRun, Execution.mem_log]
  simp only [poolQueue, onQueue_finished_iff]

theorem accepted_iff : task ∈ e.log accepted ↔
    ∃ w, task ∈ (e.lane w).log SerialQueue.Label.accepted := by
  rw [Execution.mem_log]
  simp only [mem_lane_accepted, accepted_eq_some]
  constructor
  · rintro ⟨x, hx, t, w, heq⟩
    exact ⟨w, x, hx, t, heq⟩
  · rintro ⟨w, x, hx, t, heq⟩
    exact ⟨x, hx, t, w, heq⟩

theorem begun_iff : task ∈ e.log begun ↔
    ∃ w, task ∈ (e.lane w).log SerialQueue.Label.begun := by
  rw [Execution.mem_log]
  simp only [mem_lane_begun, begun_eq_some]
  constructor
  · rintro ⟨x, hx, w, heq⟩
    exact ⟨w, x, hx, heq⟩
  · rintro ⟨w, x, hx, heq⟩
    exact ⟨x, hx, w, heq⟩

theorem finished_iff : task ∈ e.log finished ↔
    ∃ w, task ∈ (e.lane w).log SerialQueue.Label.finished := by
  rw [Execution.mem_log]
  simp only [mem_lane_finished, finished_eq_some]
  constructor
  · rintro ⟨x, hx, w, heq⟩
    exact ⟨w, x, hx, heq⟩
  · rintro ⟨w, x, hx, heq⟩
    exact ⟨x, hx, w, heq⟩

/-- A key goes to one worker. -/
theorem worker_of_accepted
    (h : task ∈ (e.lane w).log SerialQueue.Label.accepted) :
    w.val = workerOf n task.key := by
  obtain ⟨⟨s, l⟩, hx, t, heq⟩ := mem_lane_accepted.mp h
  obtain ⟨e₁, e₂, -, hnext, -⟩ := Execution.exists_next_of_mem hx
  have hstep : e₁.state.step l = some e₂.state := hnext.1
  rw [show l = .push t w task from heq, PoolState.step,
    Option.ite_none_right_eq_some] at hstep
  exact hstep.1.2.1

theorem nodup_lane_accepted (e : PoolRun n) (w : Fin n) :
    ((e.lane w).log SerialQueue.Label.accepted).Nodup := by
  refine List.Nodup.sublist ?_ (PoolRun.accounted e).nodup
  rw [PoolRun.lane, Projection.log_onRun]
  apply Execution.log_sublist
  intro l task htask
  obtain ⟨t, rfl⟩ := onQueue_accepted_iff.mp htask
  rfl

/-- Tasks of one key are with one worker. -/
theorem lane_accepted_of_key {task' : PoolTask} {e₁ : PoolRun n}
    (h : task ∈ (e.lane w).log SerialQueue.Label.accepted)
    (h' : task' ∈ e₁.log accepted) (hkey : task'.key = task.key) :
    task' ∈ (e₁.lane w).log SerialQueue.Label.accepted := by
  obtain ⟨w', hw'⟩ := accepted_iff.mp h'
  have heq : w' = w := by
    apply Fin.ext
    rw [worker_of_accepted hw', worker_of_accepted h, hkey]
  rw [← heq]
  exact hw'

theorem lane_take (hnext : e.Next (.take w task) e') :
    (e.lane w).Next (.begin task) (e'.lane w) :=
  (poolQueue n w).onRun_next hnext (if_pos rfl)

theorem lane_finish (hnext : e.Next (.finish w task) e') :
    (e.lane w).Next (.finish task) (e'.lane w) :=
  (poolQueue n w).onRun_next hnext (if_pos rfl)

/-- The next task of a worker has been accepted. -/
theorem accepted_of_take (hnext : e.Next (.take w task) e') :
    task ∈ (e.lane w).log SerialQueue.Label.accepted := by
  rw [SerialQueue.log_accepted, (lane_take hnext).1.2.1]
  exact List.mem_append_right _ List.mem_cons_self

theorem accepted_of_begun (h : task ∈ e.log begun) : task ∈ e.log accepted := by
  obtain ⟨w, hw⟩ := begun_iff.mp h
  exact accepted_iff.mpr ⟨w, SerialQueue.begun_subset _ hw⟩

/-- A task is with one worker. -/
theorem lane_unique {w' : Fin n}
    (h : task ∈ (e.lane w).log SerialQueue.Label.accepted)
    (h' : task ∈ (e.lane w').log SerialQueue.Label.accepted) : w' = w := by
  apply Fin.ext
  rw [worker_of_accepted h', worker_of_accepted h]

/-- No task is begun twice. -/
theorem nodup_begun (e : PoolRun n) : (e.log begun).Nodup := by
  refine Execution.nodup_log (fun e e' l task hnext hl hmem => ?_) e
  obtain ⟨w, rfl⟩ := begun_eq_some.mp hl
  obtain ⟨w', hw'⟩ := begun_iff.mp hmem
  cases lane_unique (accepted_of_take hnext) (SerialQueue.begun_subset _ hw')
  exact SerialQueue.not_mem_begun (lane_take hnext) (nodup_lane_accepted e w) hw'

/-- No task is finished twice. -/
theorem nodup_finished (e : PoolRun n) : (e.log finished).Nodup := by
  refine Execution.nodup_log (fun e e' l task hnext hl hmem => ?_) e
  obtain ⟨w, rfl⟩ := finished_eq_some.mp hl
  obtain ⟨w', hw'⟩ := finished_iff.mp hmem
  have hcurrent : task ∈ (PoolRun.lane e w).log SerialQueue.Label.begun := by
    rw [SerialQueue.log_begun, (lane_finish hnext).1.1]
    exact List.mem_append_right _ List.mem_cons_self
  cases lane_unique (SerialQueue.begun_subset _ hcurrent)
    (SerialQueue.begun_subset _ (SerialQueue.finished_subset _ hw'))
  exact SerialQueue.not_mem_finished (lane_finish hnext)
    (SerialQueue.nodup_begun _ (nodup_lane_accepted e w)) hw'

/-- What was accepted before a task with the same key is finished when that task is
begun. -/
theorem finished_of_take {e₁ : PoolRun n} {a b : PoolTask} (hlater : e₁.Later e)
    (ha : a ∈ e₁.log accepted) (hb : b ∉ e₁.log accepted) (hkey : a.key = b.key)
    (hnext : e.Next (.take w b) e') : a ∈ e.log finished := by
  have hbw := accepted_of_take hnext
  refine finished_iff.mpr ⟨w, SerialQueue.finished_of_begin
    ((poolQueue n w).onRun_later hlater) (lane_accepted_of_key hbw ha hkey) ?_
    (lane_take hnext)⟩
  intro hmem
  exact hb (accepted_iff.mpr ⟨w, hmem⟩)

/-- When `stop` returns, the queues are empty and nothing is executed. -/
theorem finished_of_joined (hnext : e.Next .joined e')
    (h : task ∈ e.log accepted) : task ∈ e.log finished := by
  obtain ⟨w, hw⟩ := accepted_iff.mp h
  have hstep : e.state.step .joined = some e'.state := hnext.1
  rw [PoolState.step, Option.ite_none_right_eq_some] at hstep
  have hsound := PoolRun.sound e w
  have habsent : e.state.phase w = .absent := hsound.joined n hstep.1 w.isLt
  have htasks : e.state.tasks w = [] := by
    rcases hsound.absent habsent with htasks | ⟨i, -, hcontrol⟩
    · exact htasks
    · cases hstep.1.symm.trans hcontrol
  have hidle : (e.lane w).state = { waiting := [], current := none } := by
    change e.state.queue w = _
    rw [PoolState.queue, habsent, htasks]
    rfl
  rw [SerialQueue.log_accepted, SerialQueue.log_begun, hidle] at hw
  simp only [Option.toList_none, List.append_nil] at hw
  exact finished_iff.mpr ⟨w, hw⟩

end Lanes

end ReliableDelivery
