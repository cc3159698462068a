import ReliableDelivery.Server.PoolTasks
import ReliableDelivery.Support.Driver

/-!
# Progress of the thread pool

In an endless run in which no worker, no notification and no start of a worker waits
for ever, every task that was accepted is executed.  The distance of a task counts
the tasks in front of it and, within one turn of its worker, what the worker does
before it takes the next task.
-/

namespace ReliableDelivery

open TransitionSystem PoolLabel

/-! ## The distance of a task -/

/-- The task has been accepted by the worker and is not finished. -/
def WorkerView.Pending (v : WorkerView) (task : PoolTask) : Prop :=
  task ∈ v.tasks ∨ v.phase = .running task

/-- What the worker does before it takes a task.  A worker that is absent comes after
the workers that are started before it. -/
def WorkerView.turn (w : ℕ) (v : WorkerView) : ℕ :=
  match v.phase, v.control with
  | .cleared, _ => 1
  | .ready, _ => 2
  | .blocked, _ => 3
  | .running _, _ => 4
  | .absent, .starting i => 5 + (w - i)
  | _, _ => 0

def WorkerView.distance (n w : ℕ) (task : PoolTask) (v : WorkerView) : ℕ :=
  if v.phase = .running task then 0
  else (n + 6) * (v.tasks.idxOf task + 1) + v.turn w

section Distance

variable {n w : ℕ} {task : PoolTask} {v v' : WorkerView}

theorem WorkerView.distance_of_ne (h : v.phase ≠ .running task) :
    v.distance n w task = (n + 6) * (v.tasks.idxOf task + 1) + v.turn w :=
  if_neg h

theorem WorkerView.distance_running (h : v.phase = .running task) :
    v.distance n w task = 0 :=
  if_pos h

theorem WorkerView.Pending.mem (h : v.Pending task)
    (hphase : v.phase ≠ .running task) : task ∈ v.tasks :=
  h.resolve_right hphase

/-- A turn that goes on, with the same tasks. -/
theorem WorkerView.distance_lt (hphase : v.phase ≠ .running task)
    (hphase' : v'.phase ≠ .running task) (htasks : v'.tasks = v.tasks)
    (hturn : v'.turn w < v.turn w) :
    v'.distance n w task < v.distance n w task := by
  rw [distance_of_ne hphase, distance_of_ne hphase', htasks]
  omega

/-- A task that is not run yet waits in the queue. -/
theorem WorkerView.Pending.tasks_ne_nil (h : v.Pending task)
    (hphase : v.phase ≠ .running task) : v.tasks ≠ [] :=
  List.ne_nil_of_mem (h.mem hphase)

/-- A worker that goes on with its turn comes closer to the task. -/
theorem WorkerView.Pending.goes_on (h : v.Pending task)
    (hphase : v.phase ≠ .running task) (hphase' : v'.phase ≠ .running task)
    (htasks : v'.tasks = v.tasks) (hturn : v'.turn w < v.turn w) :
    v'.Pending task ∧ v'.distance n w task < v.distance n w task :=
  ⟨.inl (htasks ▸ h.mem hphase), distance_lt hphase hphase' htasks hturn⟩

/-- While the worker is absent, the workers before it are being started. -/
theorem WorkerView.Sound.starting_of_pending (h : v.Sound w)
    (hpending : v.Pending task) (hphase : v.phase = .absent) :
    ∃ i ≤ w, v.control = .starting i := by
  rcases h.absent hphase with htasks | hstarting
  · rcases hpending with hmem | hrunning
    · rw [htasks] at hmem
      cases hmem
    · rw [hphase] at hrunning
      cases hrunning
  · exact hstarting

/-- The view is as far from the task, and the worker is where it was. -/
def WorkerView.Stays (n w : ℕ) (task : PoolTask) (v v' : WorkerView) : Prop :=
  v'.phase = v.phase ∧ v'.distance n w task = v.distance n w task ∧
    (v.phase = .absent → v'.control = v.control)

theorem WorkerView.Stays.of_eq (htasks : v'.tasks = v.tasks)
    (hphase : v'.phase = v.phase) (hcontrol : v'.control = v.control) :
    WorkerView.Stays n w task v v' := by
  refine ⟨hphase, ?_, fun _ => hcontrol⟩
  rw [distance, distance, turn, turn, htasks, hphase, hcontrol]

/-- A worker that is not absent does not look at the thread that starts. -/
theorem WorkerView.Stays.of_present (hpresent : v.phase ≠ .absent)
    (htasks : v'.tasks = v.tasks) (hphase : v'.phase = v.phase) :
    WorkerView.Stays n w task v v' := by
  refine ⟨hphase, ?_, fun habsent => absurd habsent hpresent⟩
  rw [distance, distance, turn.eq_def, turn.eq_def, htasks, hphase]
  cases hv : v.phase with
  | absent => exact absurd hv hpresent
  | _ => rfl

/-- A worker that is blocked and has tasks is notified. -/
theorem WorkerView.distance_wake (hpending : v.Pending task)
    (hphase : v.phase = .blocked) (control : PoolControl) :
    WorkerView.Pending { v with phase := .ready, control } task ∧
      WorkerView.distance n w task { v with phase := .ready, control } <
        v.distance n w task := by
  have hne : v.phase ≠ .running task := by simp [hphase]
  refine ⟨.inl (hpending.mem hne), distance_lt hne ?_ rfl ?_⟩
  · simp
  · simp [turn, hphase]

/-- A task that is pushed comes behind the ones that are there. -/
theorem WorkerView.stays_push (hpending : v.Pending task) (task' : PoolTask) :
    WorkerView.Pending { v with tasks := v.tasks ++ [task'] } task ∧
      WorkerView.Stays n w task v { v with tasks := v.tasks ++ [task'] } := by
  refine ⟨hpending.imp_left (List.mem_append_left _), rfl, ?_, fun _ => rfl⟩
  by_cases hphase : v.phase = .running task
  · rw [distance_running hphase]
    exact distance_running hphase
  · rw [distance_of_ne hphase]
    rw [distance, if_neg hphase, List.idxOf_append_of_mem (hpending.mem hphase)]
    rfl

/-- A task that is taken is the one, or was in front of it. -/
theorem WorkerView.Pending.take (h : v.Pending task) (hphase : v.phase = .cleared)
    {task' : PoolTask} {rest : List PoolTask} (htasks : v.tasks = task' :: rest) :
    WorkerView.Pending { v with tasks := rest, phase := .running task' } task ∧
      WorkerView.distance n w task { v with tasks := rest, phase := .running task' } <
        v.distance n w task := by
  have hne : v.phase ≠ .running task := by simp [hphase]
  have hmem := h.mem hne
  rw [htasks] at hmem
  rw [distance_of_ne hne, htasks]
  by_cases htask : task' = task
  · subst htask
    refine ⟨.inr rfl, ?_⟩
    rw [distance_running rfl, Nat.mul_succ]
    omega
  · have hrest := (List.mem_cons.mp hmem).resolve_left (Ne.symm htask)
    refine ⟨.inl hrest, ?_⟩
    rw [distance_of_ne (by simpa using htask), List.idxOf_cons_ne _ htask,
      Nat.mul_succ (n + 6) (rest.idxOf task + 1)]
    simp only [turn, hphase]
    omega

/-- A start of another worker comes before that of the worker, which is waited for, or
does not matter. -/
theorem WorkerView.Pending.start_other (h : v.Pending task) (hsound : v.Sound w) {i : ℕ}
    (hother : i ≠ w) (hcontrol : v.control = .starting i) :
    WorkerView.distance n w task { v with control := .starting (i + 1) } <
        v.distance n w task ∨
      WorkerView.Stays n w task v { v with control := .starting (i + 1) } := by
  by_cases habsent : v.phase = .absent
  · obtain ⟨i', hi', heq⟩ := hsound.starting_of_pending h habsent
    cases hcontrol.symm.trans heq
    left
    apply distance_lt
    · simp [habsent]
    · simp [habsent]
    · rfl
    · simp only [turn, habsent, hcontrol]
      omega
  · exact .inr (.of_present habsent rfl rfl)

/-- A notification wakes the worker up, or does nothing. -/
theorem WorkerView.Pending.notify (h : v.Pending task) (control : PoolControl)
    (hcontrol : v.phase ≠ .absent ∨ control = v.control) :
    WorkerView.Pending { v with phase := v.phase.wake, control } task ∧
      (WorkerView.distance n w task { v with phase := v.phase.wake, control } <
          v.distance n w task ∨
        WorkerView.Stays n w task v { v with phase := v.phase.wake, control }) := by
  rcases v.phase.wake_eq with hsame | ⟨hblocked, hready⟩
  · rw [Pending, hsame]
    refine ⟨h, .inr ?_⟩
    rcases hcontrol with hpresent | hcontrol
    · exact .of_present hpresent rfl rfl
    · exact .of_eq rfl rfl hcontrol
  · rw [hready]
    exact (distance_wake h hblocked control).imp_right .inl

/-- A step of the pool finishes the task, or brings it closer, or leaves the worker
where it is. -/
theorem WorkerStep.closer (hstep : WorkerStep n w v v') (hw : w < n)
    (hsound : v.Sound w) (hpending : v.Pending task) :
    v.phase = .running task ∧ v'.phase = .ready ∨
      v'.Pending task ∧ (v'.distance n w task < v.distance n w task ∨
        WorkerView.Stays n w task v v') := by
  have hpresent : (∀ i ≤ w, v.control ≠ .starting i) → v.phase ≠ .absent := by
    intro hcontrol habsent
    obtain ⟨i, hi, heq⟩ := hsound.starting_of_pending hpending habsent
    exact hcontrol i hi heq
  cases hstep with
  | other => exact .inr ⟨hpending, .inr (.of_eq rfl rfl rfl)⟩
  | start hcontrol hstopped =>
      exact absurd (hsound.gone hcontrol hstopped) (hpresent (by simp [hcontrol]))
  | spawn hcontrol hphase =>
      refine .inr (And.imp_right .inl ?_)
      apply hpending.goes_on
      · simp [hphase]
      · simp
      · rfl
      · simp [WorkerView.turn, hphase, hcontrol]
  | spawnOther i hother hcontrol =>
      exact .inr ⟨hpending, hpending.start_other hsound hother hcontrol⟩
  | started hcontrol =>
      refine .inr ⟨hpending, .inr (.of_present (hpresent ?_) rfl rfl)⟩
      intro i hi heq
      cases hcontrol.symm.trans heq
      omega
  | stop hcontrol =>
      exact .inr ⟨hpending,
        .inr (.of_present (hpresent (by simp [hcontrol])) rfl rfl)⟩
  | notifyAll hcontrol =>
      exact .inr (hpending.notify _ (.inl (hpresent (by simp [hcontrol]))))
  | notifyOther i hother hcontrol =>
      exact .inr ⟨hpending,
        .inr (.of_present (hpresent (by simp [hcontrol])) rfl rfl)⟩
  | notified hcontrol =>
      exact .inr ⟨hpending,
        .inr (.of_present (hpresent (by simp [hcontrol])) rfl rfl)⟩
  | join hcontrol hphase =>
      rcases hphase with habsent | hreturned
      · exact absurd habsent (hpresent (by simp [hcontrol]))
      · exact absurd (hsound.returned hreturned).1
          (hpending.tasks_ne_nil (by simp [hreturned]))
  | joinOther i hother hcontrol =>
      exact .inr ⟨hpending,
        .inr (.of_present (hpresent (by simp [hcontrol])) rfl rfl)⟩
  | joined hcontrol =>
      exact .inr ⟨hpending,
        .inr (.of_present (hpresent (by simp [hcontrol])) rfl rfl)⟩
  | push task' hmutex hstopped =>
      exact .inr ((WorkerView.stays_push hpending task').imp_right .inr)
  | notifyOne => exact .inr (hpending.notify v.control (.inr rfl))
  | goOn hphase hpredicate =>
      refine .inr (And.imp_right .inl ?_)
      apply hpending.goes_on
      · simp [hphase]
      · simp
      · rfl
      · simp [WorkerView.turn, hphase]
  | wait hphase htasks hstopped =>
      exact absurd htasks (hpending.tasks_ne_nil (by simp [hphase]))
  | block hphase =>
      exact absurd (hsound.waiting hphase)
        (hpending.tasks_ne_nil (by simp [hphase]))
  | leave hphase hstopped htasks =>
      exact absurd htasks (hpending.tasks_ne_nil (by simp [hphase]))
  | take task' rest hphase htasks =>
      exact .inr ((hpending.take hphase htasks).imp_right .inl)
  | finish task' hphase =>
      by_cases htask : task' = task
      · subst htask
        exact .inl ⟨hphase, rfl⟩
      · refine .inr (And.imp_right .inl ?_)
        apply hpending.goes_on
        · simpa [hphase] using htask
        · simp
        · rfl
        · simp [WorkerView.turn, hphase]

end Distance

/-! ## Fair runs -/

/-- Who takes the steps that are not put off for ever: the thread of a worker, a call
of `submit` that is to notify, and the thread that starts the workers. -/
inductive PoolActor (n : ℕ) where
  | worker (w : Fin n)
  | notifier (t : ℕ)
  | starter

def PoolActor.steps {n : ℕ} : PoolActor n → Set (PoolLabel n)
  | worker w => {l | match l with
      | .evaluate w' => w' = w
      | .block w' => w' = w
      | .leave w' => w' = w
      | .take w' _ => w' = w
      | .finish w' _ => w' = w
      | _ => False}
  | notifier t => {l | ∃ w task, l = .notifyOne t w task}
  | starter => {l | ∃ w, l = .spawn w}

/-- No actor that can go on waits for ever. -/
def PoolFair {n : ℕ} (ρ : (pool n).Endless) : Prop :=
  ∀ actor : PoolActor n, ρ.Fair actor.steps

section Fair

variable {n : ℕ} {w : Fin n} {task : PoolTask}

/-- The actor on whom the task waits. -/
def PoolActor.Helps (w : Fin n) (s : PoolState n) : PoolActor n → Prop
  | worker w' => w' = w ∧
      (s.phase w = .ready ∨ s.phase w = .cleared ∨
        ∃ task, s.phase w = .running task)
  | notifier t => s.phase w = .blocked ∧
      ∃ task, s.calls t = some (.pushed, task) ∧ w.val = workerOf n task.key
  | starter => s.phase w = .absent

theorem exists_helps (e : PoolRun n) (hpending : (e.state.view w).Pending task) :
    ∃ actor, PoolActor.Helps w e.state actor := by
  have hsound := PoolRun.sound e w
  have hphase : (e.state.view w).phase = e.state.phase w := rfl
  cases hp : e.state.phase w with
  | absent => exact ⟨.starter, hp⟩
  | ready => exact ⟨.worker w, rfl, .inl hp⟩
  | cleared => exact ⟨.worker w, rfl, .inr (.inl hp)⟩
  | running task' => exact ⟨.worker w, rfl, .inr (.inr ⟨task', hp⟩)⟩
  | blocked =>
      have hmem := hpending.mem (by simp [hphase, hp])
      obtain ⟨t, task', hcall, hworker⟩ :=
        PoolRun.awaited e w hp (List.ne_nil_of_mem hmem)
      exact ⟨.notifier t, hp, task', hcall, hworker⟩
  | waiting =>
      have hmem := hpending.mem (by simp [hphase, hp])
      rw [hsound.waiting hp] at hmem
      cases hmem
  | returned =>
      have hmem := hpending.mem (by simp [hphase, hp])
      rw [(hsound.returned hp).1] at hmem
      cases hmem

theorem enabled_of_helps (e : PoolRun n) (hpending : (e.state.view w).Pending task)
    {actor : PoolActor n} (hhelps : actor.Helps w e.state) :
    (pool n).Enabled actor.steps e.state := by
  have hphase : (e.state.view w).phase = e.state.phase w := rfl
  cases actor with
  | worker w' =>
      obtain ⟨rfl, hready | hcleared | ⟨task', hrunning⟩⟩ := hhelps
      · exact ⟨.evaluate w', rfl, _, if_pos hready⟩
      · have hmem := hpending.mem (by simp [hphase, hcleared])
        obtain ⟨task', rest, htasks⟩ :=
          List.exists_cons_of_ne_nil (List.ne_nil_of_mem hmem)
        have htasks' : e.state.tasks w' = task' :: rest := htasks
        exact ⟨.take w' task', rfl, _,
          if_pos ⟨hcleared, by simp [htasks'], by simp [htasks']⟩⟩
      · exact ⟨.finish w' task', rfl, _, if_pos hrunning⟩
  | notifier t =>
      obtain ⟨-, task', hcall, hworker⟩ := hhelps
      exact ⟨.notifyOne t w task', ⟨w, task', rfl⟩, _, if_pos ⟨hcall, hworker⟩⟩
  | starter =>
      obtain ⟨i, hi, hcontrol⟩ :=
        (PoolRun.sound e w).starting_of_pending hpending hhelps
      let w' : Fin n := ⟨i, lt_of_le_of_lt hi w.isLt⟩
      have habsent : e.state.phase w' = .absent :=
        (PoolRun.sound e w').unspawned i hcontrol le_rfl
      exact ⟨.spawn w', ⟨w', rfl⟩, _, if_pos ⟨hcontrol, habsent⟩⟩

/-- Every step of a worker moves it. -/
theorem phase_ne_of_worker {s s' : PoolState n} {l : PoolLabel n}
    (hstep : s.step l = some s') (hl : l ∈ (PoolActor.worker w).steps) :
    s'.phase w ≠ s.phase w := by
  cases l with
  | evaluate w' =>
      cases hl
      simp only [PoolState.step, Option.ite_none_right_eq_some,
        Option.some.injEq] at hstep
      obtain ⟨hready, rfl⟩ := hstep
      rw [PoolState.phase_setPhase, if_pos rfl, hready]
      split
      · decide
      · decide
  | block w' =>
      cases hl
      simp only [PoolState.step, Option.ite_none_right_eq_some,
        Option.some.injEq] at hstep
      obtain ⟨hwaiting, rfl⟩ := hstep
      simp [hwaiting]
  | leave w' =>
      cases hl
      simp only [PoolState.step, Option.ite_none_right_eq_some,
        Option.some.injEq] at hstep
      obtain ⟨⟨hcleared, -⟩, rfl⟩ := hstep
      simp [hcleared]
  | take w' task' =>
      cases hl
      simp only [PoolState.step, Option.ite_none_right_eq_some,
        Option.some.injEq] at hstep
      obtain ⟨⟨hcleared, -⟩, rfl⟩ := hstep
      simp [hcleared]
  | finish w' task' =>
      cases hl
      simp only [PoolState.step, Option.ite_none_right_eq_some,
        Option.some.injEq] at hstep
      obtain ⟨hrunning, rfl⟩ := hstep
      simp [hrunning]
  | _ => exact hl.elim

/-- The step of the actor moves the worker, or brings it nearer to its start. -/
theorem not_stays_of_helps {s s' : PoolState n} {l : PoolLabel n}
    (hstep : s.step l = some s') {actor : PoolActor n}
    (hhelps : actor.Helps w s) (hl : l ∈ actor.steps) :
    ¬WorkerView.Stays n w task (s.view w) (s'.view w) := by
  rintro ⟨hphase, -, hcontrol⟩
  cases actor with
  | worker w' =>
      cases hhelps.1
      exact phase_ne_of_worker hstep hl hphase
  | notifier t =>
      obtain ⟨hblocked, task', hcall, hworker⟩ := hhelps
      obtain ⟨w', task'', rfl⟩ := hl
      simp only [PoolState.step, Option.ite_none_right_eq_some,
        Option.some.injEq] at hstep
      obtain ⟨⟨hcall', hworker'⟩, rfl⟩ := hstep
      cases hcall.symm.trans hcall'
      cases Fin.ext (hworker.trans hworker'.symm)
      simp [PoolState.view, hblocked, WorkerPhase.wake] at hphase
  | starter =>
      obtain ⟨w', rfl⟩ := hl
      simp only [PoolState.step, Option.ite_none_right_eq_some,
        Option.some.injEq] at hstep
      obtain ⟨⟨hstarting, -⟩, rfl⟩ := hstep
      have hsame := hcontrol hhelps
      simp [PoolState.view, hstarting] at hsame

/-- A worker that stays where it is waits on the same actor, unless that acts. -/
theorem helps_of_stays {s s' : PoolState n} {l : PoolLabel n}
    (hstep : s.step l = some s') {actor : PoolActor n}
    (hhelps : actor.Helps w s) (hl : l ∉ actor.steps)
    (hstays : WorkerView.Stays n w task (s.view w) (s'.view w)) :
    actor.Helps w s' := by
  have hphase : s'.phase w = s.phase w := hstays.1
  cases actor with
  | worker w' => rwa [PoolActor.Helps, hphase]
  | starter => rwa [PoolActor.Helps, hphase]
  | notifier t =>
      obtain ⟨hblocked, task', hcall, hworker⟩ := hhelps
      refine ⟨hphase.trans hblocked, task', ?_, hworker⟩
      cases PoolState.calls_step hstep with
      | same hcalls => rw [hcalls, hcall]
      | call t' key hcall' hcalls =>
          rw [hcalls, Function.update_of_ne, hcall]
          rintro rfl
          cases hcall.symm.trans hcall'
      | check t' task'' hcall' hcalls =>
          rw [hcalls, Function.update_of_ne, hcall]
          rintro rfl
          cases hcall.symm.trans hcall'
      | push t' task'' hcall' hcalls =>
          rw [hcalls, Function.update_of_ne, hcall]
          rintro rfl
          cases hcall.symm.trans hcall'
      | refuse t' phase task'' hne hcall' hcalls =>
          rw [hcalls, Function.update_of_ne, hcall]
          rintro rfl
          cases hcall.symm.trans hcall'
          exact hne rfl
      | acknowledge t' task'' hlabel hcall' hcalls =>
          rw [hcalls, Function.update_of_ne, hcall]
          rintro rfl
          obtain ⟨w', rfl⟩ := hlabel
          exact hl ⟨w', task'', rfl⟩

/-- When a worker has come back to its loop, the task that it had begun is done. -/
theorem finished_of_ready {e e' : PoolRun n} {l : PoolLabel n}
    (hnext : e.Next l e') (hrunning : e.state.phase w = .running task)
    (hready : e'.state.phase w = .ready) : task ∈ e'.log finished := by
  have hbegun : task ∈ (e.lane w).log SerialQueue.Label.begun := by
    rw [SerialQueue.log_begun]
    apply List.mem_append_right
    change task ∈ (e.state.phase w).current.toList
    rw [hrunning]
    exact List.mem_cons_self
  have hlater := ((poolQueue n w).onRun_later hnext.later).log_extends
    SerialQueue.Label.begun
  have hstill : task ∈ (e'.lane w).log SerialQueue.Label.begun :=
    hlater.subset hbegun
  have hidle : (PoolRun.lane e' w).state.current = none := by
    change (e'.state.phase w).current = none
    rw [hready]
    rfl
  rw [SerialQueue.log_begun, hidle, Option.toList_none, List.append_nil] at hstill
  exact finished_iff.mpr ⟨w, hstill⟩

theorem pending_of_accepted {e : PoolRun n} (h : task ∈ e.log accepted) :
    task ∈ e.log finished ∨ ∃ w, (e.state.view w).Pending task := by
  obtain ⟨w, hw⟩ := accepted_iff.mp h
  rw [SerialQueue.log_accepted, SerialQueue.log_begun, List.mem_append,
    List.mem_append] at hw
  rcases hw with (hfinished | hcurrent) | hwaiting
  · exact .inl (finished_iff.mpr ⟨w, hfinished⟩)
  · refine .inr ⟨w, .inr ?_⟩
    exact WorkerPhase.current_eq_some.mp (Option.mem_toList.mp hcurrent)
  · exact .inr ⟨w, .inl hwaiting⟩

/-- In a fair run every task that was accepted is executed. -/
theorem eventually_finished (ρ : (pool n).Endless) (hfair : PoolFair ρ) {i : ℕ}
    (h : task ∈ (ρ.point i).log accepted) :
    ∃ j, i ≤ j ∧ task ∈ (ρ.point j).log finished := by
  rcases pending_of_accepted h with hfinished | ⟨w, hpending⟩
  · exact ⟨i, le_rfl, hfinished⟩
  · refine @Endless.eventually _ _ (pool n) (PoolActor n) PoolActor.steps
      (fun e => (PoolState.view e.state w).Pending task)
      (fun e => task ∈ e.log finished)
      (fun actor e => PoolActor.Helps w e.state actor)
      (fun e => (PoolState.view e.state w).distance n w task)
      ρ hfair ?_ ?_ ?_ i hpending
    · exact fun e hpending => .inr (exists_helps e hpending)
    · exact fun actor e hpending hhelps => enabled_of_helps e hpending hhelps
    · intro actor e e' l hpending hhelps hnext
      rcases (PoolState.view_step hnext.1 w).closer w.isLt (PoolRun.sound e w)
        hpending with ⟨hrunning, hready⟩ | ⟨hpending', hless | hstays⟩
      · exact .inl (finished_of_ready hnext hrunning hready)
      · exact .inr ⟨hpending', .inl hless⟩
      · have hl : l ∉ actor.steps := fun hl =>
          not_stays_of_helps hnext.1 hhelps hl hstays
        exact .inr ⟨hpending', .inr ⟨hstays.2.1.le, hl,
          helps_of_stays hnext.1 hhelps hl hstays⟩⟩

end Fair

/-- What becomes of the tasks.  None is begun or finished twice.  One whose `submit`
returned true was accepted; an accepted one is finished in a fair run, and in every
run when `stop` returns.  One whose `submit` returned false is never begun.  If a task
was accepted before another one with the same key, then it is finished when the other
one is begun. -/
theorem accepted_tasks_run {n : ℕ} (e : PoolRun n) :
    (e.log begun).Nodup ∧ (e.log finished).Nodup ∧
    (∀ task ∈ e.log acknowledged, task ∈ e.log accepted) ∧
    (∀ ρ : (pool n).Endless, PoolFair ρ → ∀ i, ρ.point i = e →
      ∀ task ∈ e.log accepted, ∃ j, i ≤ j ∧ task ∈ (ρ.point j).log finished) ∧
    (∀ e' : PoolRun n, e.Next .joined e' →
      ∀ task ∈ e.log accepted, task ∈ e.log finished) ∧
    (∀ task ∈ e.log refused, task ∉ e.log begun) ∧
    ∀ (e₁ e' : PoolRun n) w a b, e₁.Later e → a ∈ e₁.log accepted →
      b ∉ e₁.log accepted → a.key = b.key → e.Next (.take w b) e' →
      a ∈ e.log finished := by
  have haccounted := PoolRun.accounted e
  refine ⟨nodup_begun e, nodup_finished e, haccounted.acknowledged, ?_, ?_, ?_, ?_⟩
  · rintro ρ hfair i rfl task htask
    exact eventually_finished ρ hfair htask
  · intro e' hnext task htask
    exact finished_of_joined hnext htask
  · intro task htask hbegun
    exact haccounted.refused_alone task htask (accepted_of_begun hbegun)
  · intro e₁ e' w a b hlater ha hb hkey hnext
    exact finished_of_take hlater ha hb hkey hnext

/-! ## A concrete run -/

def poolDriver (n : ℕ) : Driver (pool n) (PoolLabel n) where
  advance s l := (s.step l).map fun s' => (l, s')
  sound s l l' s' h := by
    obtain ⟨s'', hstep, heq⟩ := Option.map_eq_some_iff.mp h
    cases heq
    exact hstep

/-- The run along a list of labels; impossible ones are skipped. -/
theorem exists_poolRun {n : ℕ} (labels : List (PoolLabel n)) :
    ∃ e : PoolRun n, e.state = (poolDriver n).follow {} labels ∧
      e.history = ((poolDriver n).trace {} labels).reverse := by
  obtain ⟨e, -, hstate, hhistory⟩ :=
    (poolDriver n).exists_follow labels ⟨[], {}, .init rfl⟩
  rw [List.append_nil] at hhistory
  exact ⟨e, hstate, hhistory⟩

/-- Two tasks with one key are accepted, `stop` is called while the first one runs,
and a third task is refused. -/
def samplePool : List (PoolLabel 1) :=
  [.start, .spawn 0, .started, .evaluate 0, .block 0,
   .call 1 7, .check 1 ⟨0, 7⟩, .push 1 0 ⟨0, 7⟩, .notifyOne 1 0 ⟨0, 7⟩,
   .call 2 7, .check 2 ⟨1, 7⟩, .evaluate 0, .take 0 ⟨0, 7⟩, .push 2 0 ⟨1, 7⟩,
   .call 3 7, .check 3 ⟨2, 7⟩, .stop, .notifyAll 0, .notified,
   .refuseLocked 3 0 ⟨2, 7⟩, .notifyOne 2 0 ⟨1, 7⟩, .finish 0 ⟨0, 7⟩,
   .evaluate 0, .take 0 ⟨1, 7⟩, .finish 0 ⟨1, 7⟩, .evaluate 0, .leave 0,
   .join 0]

/-- The two tasks are finished when `stop` returns, the third one was refused. -/
theorem accepted_tasks_run_samplePool :
    ∃ e e' : PoolRun 1, e.Next .joined e' ∧
      e.log accepted = [⟨0, 7⟩, ⟨1, 7⟩] ∧ e.log refused = [⟨2, 7⟩] ∧
      (∀ task ∈ e.log accepted, task ∈ e.log finished) ∧
      ∀ task ∈ e.log refused, task ∉ e.log begun := by
  obtain ⟨e, hstate, hhistory⟩ := exists_poolRun samplePool
  have hjoined : (e.state.step .joined).isSome = true := by
    rw [hstate]
    decide +kernel
  obtain ⟨s', hstep⟩ := Option.isSome_iff_exists.mp hjoined
  have hnext := e.next_extend hstep
  obtain ⟨-, -, -, -, hfinished, hrefused, -⟩ := accepted_tasks_run e
  refine ⟨e, _, hnext, ?_, ?_, hfinished _ hnext, hrefused⟩
  · rw [Execution.log, hhistory]
    decide +kernel
  · rw [Execution.log, hhistory]
    decide +kernel

end ReliableDelivery
