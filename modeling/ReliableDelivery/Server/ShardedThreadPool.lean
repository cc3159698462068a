import ReliableDelivery.Server.System
import ReliableDelivery.Support.Fairness
import ReliableDelivery.Support.SerialQueue

/-!
# The thread pool

`ShardedThreadPool.h`.  Any number of threads call `submit`, and one thread calls
`start` and `stop` by turns, as the dispatcher does.  A step is one access to
`stopped_`, one operation on a condition variable or a thread, or one section of
code under the mutex of a worker; the section in which a worker waits is split at
the evaluation of the predicate and at the place where the worker releases the
mutex and blocks.  A worker that is notified locks the mutex again and evaluates
the predicate anew; there are no spurious wake-ups.
-/

namespace ReliableDelivery

open TransitionSystem

/-- A task, numbered by the call of `submit` that it comes with. -/
structure PoolTask where
  number : ℕ
  key : UInt64
  deriving DecidableEq, Repr

/-- Where the thread of a worker is.  In `waiting` and in `cleared` it has evaluated
its predicate to false and to true, and it holds the mutex. -/
inductive WorkerPhase where
  | absent
  | ready
  | waiting
  | blocked
  | cleared
  | running (task : PoolTask)
  | returned
  deriving DecidableEq, Repr

structure Worker where
  tasks : List PoolTask := []
  phase : WorkerPhase := .absent

/-- Where a call of `submit` is: before the first look at `stopped_`, before the
section under the mutex, and before the notification. -/
inductive SubmitPhase where
  | called
  | checked
  | pushed
  deriving DecidableEq, Repr

/-- Where the thread is that calls `start` and `stop`, and which worker is next. -/
inductive PoolControl where
  | rest
  | starting (i : ℕ)
  | notifying (i : ℕ)
  | joining (i : ℕ)
  deriving DecidableEq, Repr

/-- A pool of `n` workers.  `calls` has the calls of `submit` that have not returned,
by the thread that makes them. -/
structure PoolState (n : ℕ) where
  stopped : Bool := true
  workers : Fin n → Worker := fun _ => {}
  calls : ℕ → Option (SubmitPhase × PoolTask) := fun _ => none
  control : PoolControl := .rest
  nextTask : ℕ := 0

/-- The steps.  `refuse` and `refuseLocked` return false from `submit`, and
`notifyOne` returns true. -/
inductive PoolLabel (n : ℕ) where
  | start
  | spawn (w : Fin n)
  | started
  | stop
  | notifyAll (w : Fin n)
  | notified
  | join (w : Fin n)
  | joined
  | call (t : ℕ) (key : UInt64)
  | check (t : ℕ) (task : PoolTask)
  | refuse (t : ℕ) (task : PoolTask)
  | refuseLocked (t : ℕ) (w : Fin n) (task : PoolTask)
  | push (t : ℕ) (w : Fin n) (task : PoolTask)
  | notifyOne (t : ℕ) (w : Fin n) (task : PoolTask)
  | evaluate (w : Fin n)
  | block (w : Fin n)
  | leave (w : Fin n)
  | take (w : Fin n) (task : PoolTask)
  | finish (w : Fin n) (task : PoolTask)
  deriving DecidableEq

/-- The worker that a key is given to. -/
def workerOf (n : ℕ) (key : UInt64) : ℕ :=
  (ServerState.mixKey key).toNat % n

namespace WorkerPhase

def holdsMutex : WorkerPhase → Bool
  | waiting => true
  | cleared => true
  | _ => false

/-- What a notification does. -/
def wake : WorkerPhase → WorkerPhase
  | blocked => ready
  | phase => phase

end WorkerPhase

namespace PoolState

variable {n : ℕ}

def phase (s : PoolState n) (w : Fin n) : WorkerPhase :=
  (s.workers w).phase

def tasks (s : PoolState n) (w : Fin n) : List PoolTask :=
  (s.workers w).tasks

def setPhase (s : PoolState n) (w : Fin n) (phase : WorkerPhase) : PoolState n :=
  { s with workers := Function.update s.workers w { s.workers w with phase } }

def setTasks (s : PoolState n) (w : Fin n) (tasks : List PoolTask) :
    PoolState n :=
  { s with workers := Function.update s.workers w { s.workers w with tasks } }

def setCall (s : PoolState n) (t : ℕ) (call : Option (SubmitPhase × PoolTask)) :
    PoolState n :=
  { s with calls := Function.update s.calls t call }

def setControl (s : PoolState n) (control : PoolControl) : PoolState n :=
  { s with control }

def setStopped (s : PoolState n) (stopped : Bool) : PoolState n :=
  { s with stopped }

/-- A task gets its number. -/
def numbered (s : PoolState n) : PoolState n :=
  { s with nextTask := s.nextTask + 1 }

def notify (s : PoolState n) (w : Fin n) : PoolState n :=
  s.setPhase w (s.phase w).wake

/-- The predicate of the condition variable. -/
def mayGoOn (s : PoolState n) (w : Fin n) : Bool :=
  !(s.tasks w).isEmpty || s.stopped

/-- The step under a label, if it is possible. -/
def step (s : PoolState n) : PoolLabel n → Option (PoolState n)
  | .start =>
      if s.control = .rest then
        some (if s.stopped then (s.setStopped false).setControl (.starting 0)
          else s)
      else none
  | .spawn w =>
      if s.control = .starting w ∧ s.phase w = .absent then
        some ((s.setPhase w .ready).setControl (.starting (w + 1)))
      else none
  | .started =>
      if s.control = .starting n then some (s.setControl .rest) else none
  | .stop =>
      if s.control = .rest then
        some ((s.setStopped true).setControl (.notifying 0))
      else none
  | .notifyAll w =>
      if s.control = .notifying w then
        some ((s.notify w).setControl (.notifying (w + 1)))
      else none
  | .notified =>
      if s.control = .notifying n then some (s.setControl (.joining 0)) else none
  | .join w =>
      if s.control = .joining w ∧ (s.phase w = .absent ∨ s.phase w = .returned) then
        some ((s.setPhase w .absent).setControl (.joining (w + 1)))
      else none
  | .joined =>
      if s.control = .joining n then some (s.setControl .rest) else none
  | .call t key =>
      if s.calls t = none then
        some (s.numbered.setCall t (some (.called, ⟨s.nextTask, key⟩)))
      else none
  | .check t task =>
      if s.calls t = some (.called, task) ∧ ¬(s.stopped ∨ n = 0) then
        some (s.setCall t (some (.checked, task)))
      else none
  | .refuse t task =>
      if s.calls t = some (.called, task) ∧ (s.stopped ∨ n = 0) then
        some (s.setCall t none)
      else none
  | .refuseLocked t w task =>
      if s.calls t = some (.checked, task) ∧ w.val = workerOf n task.key ∧
          ¬(s.phase w).holdsMutex ∧ s.stopped then
        some (s.setCall t none)
      else none
  | .push t w task =>
      if s.calls t = some (.checked, task) ∧ w.val = workerOf n task.key ∧
          ¬(s.phase w).holdsMutex ∧ ¬s.stopped then
        some ((s.setTasks w (s.tasks w ++ [task])).setCall t
          (some (.pushed, task)))
      else none
  | .notifyOne t w task =>
      if s.calls t = some (.pushed, task) ∧ w.val = workerOf n task.key then
        some ((s.notify w).setCall t none)
      else none
  | .evaluate w =>
      if s.phase w = .ready then
        some (s.setPhase w (if s.mayGoOn w then .cleared else .waiting))
      else none
  | .block w =>
      if s.phase w = .waiting then some (s.setPhase w .blocked) else none
  | .leave w =>
      if s.phase w = .cleared ∧ s.stopped ∧ s.tasks w = [] then
        some (s.setPhase w .returned)
      else none
  | .take w task =>
      if s.phase w = .cleared ∧ ¬(s.stopped ∧ s.tasks w = []) ∧
          (s.tasks w).head? = some task then
        some ((s.setTasks w (s.tasks w).tail).setPhase w (.running task))
      else none
  | .finish w task =>
      if s.phase w = .running task then some (s.setPhase w .ready) else none

end PoolState

/-- All runs of a pool of `n` workers. -/
def pool (n : ℕ) : TransitionSystem (PoolState n) (PoolLabel n) where
  init s := s = {}
  step s l s' := s.step l = some s'

abbrev PoolRun (n : ℕ) := (pool n).Execution

namespace PoolState

/-! ## What the updates leave -/

section Updates

variable {n : ℕ} (s : PoolState n)

@[simp] theorem phase_setPhase (w w' : Fin n) (phase : WorkerPhase) :
    (s.setPhase w phase).phase w' = if w' = w then phase else s.phase w' := by
  simp only [PoolState.phase, setPhase, Function.update_apply]
  split
  · rfl
  · rfl

@[simp] theorem tasks_setPhase (w w' : Fin n) (phase : WorkerPhase) :
    (s.setPhase w phase).tasks w' = s.tasks w' := by
  simp only [PoolState.tasks, setPhase, Function.update_apply]
  split
  · next heq => rw [heq]
  · rfl

@[simp] theorem phase_setTasks (w w' : Fin n) (tasks : List PoolTask) :
    (s.setTasks w tasks).phase w' = s.phase w' := by
  simp only [PoolState.phase, setTasks, Function.update_apply]
  split
  · next heq => rw [heq]
  · rfl

@[simp] theorem tasks_setTasks (w w' : Fin n) (tasks : List PoolTask) :
    (s.setTasks w tasks).tasks w' = if w' = w then tasks else s.tasks w' := by
  simp only [PoolState.tasks, setTasks, Function.update_apply]
  split
  · rfl
  · rfl

@[simp] theorem phase_notify (w w' : Fin n) :
    (s.notify w).phase w' = if w' = w then (s.phase w).wake else s.phase w' :=
  s.phase_setPhase w w' _

@[simp] theorem tasks_notify (w w' : Fin n) :
    (s.notify w).tasks w' = s.tasks w' :=
  s.tasks_setPhase w w' _

variable (w : Fin n) (t t' : ℕ) (phase : WorkerPhase) (tasks : List PoolTask)
  (call : Option (SubmitPhase × PoolTask)) (control : PoolControl)
  (stopped : Bool)

@[simp] theorem calls_setCall :
    (s.setCall t call).calls t' = if t' = t then call else s.calls t' :=
  Function.update_apply ..

@[simp] theorem phase_setCall : (s.setCall t call).phase w = s.phase w := rfl
@[simp] theorem phase_setControl : (s.setControl control).phase w = s.phase w := rfl
@[simp] theorem phase_setStopped : (s.setStopped stopped).phase w = s.phase w := rfl
@[simp] theorem phase_numbered : s.numbered.phase w = s.phase w := rfl

@[simp] theorem tasks_setCall : (s.setCall t call).tasks w = s.tasks w := rfl
@[simp] theorem tasks_setControl : (s.setControl control).tasks w = s.tasks w := rfl
@[simp] theorem tasks_setStopped : (s.setStopped stopped).tasks w = s.tasks w := rfl
@[simp] theorem tasks_numbered : s.numbered.tasks w = s.tasks w := rfl

@[simp] theorem calls_setPhase : (s.setPhase w phase).calls = s.calls := rfl
@[simp] theorem calls_setTasks : (s.setTasks w tasks).calls = s.calls := rfl
@[simp] theorem calls_notify : (s.notify w).calls = s.calls := rfl
@[simp] theorem calls_setControl : (s.setControl control).calls = s.calls := rfl
@[simp] theorem calls_setStopped : (s.setStopped stopped).calls = s.calls := rfl
@[simp] theorem calls_numbered : s.numbered.calls = s.calls := rfl

@[simp] theorem control_setPhase : (s.setPhase w phase).control = s.control := rfl
@[simp] theorem control_setTasks : (s.setTasks w tasks).control = s.control := rfl
@[simp] theorem control_notify : (s.notify w).control = s.control := rfl
@[simp] theorem control_setCall : (s.setCall t call).control = s.control := rfl
@[simp] theorem control_setControl : (s.setControl control).control = control := rfl
@[simp] theorem control_numbered : s.numbered.control = s.control := rfl

@[simp] theorem stopped_setPhase : (s.setPhase w phase).stopped = s.stopped := rfl
@[simp] theorem stopped_setTasks : (s.setTasks w tasks).stopped = s.stopped := rfl
@[simp] theorem stopped_notify : (s.notify w).stopped = s.stopped := rfl
@[simp] theorem stopped_setCall : (s.setCall t call).stopped = s.stopped := rfl
@[simp] theorem stopped_setControl : (s.setControl control).stopped = s.stopped := rfl
@[simp] theorem stopped_setStopped : (s.setStopped stopped).stopped = stopped := rfl
@[simp] theorem stopped_numbered : s.numbered.stopped = s.stopped := rfl

@[simp] theorem nextTask_setPhase : (s.setPhase w phase).nextTask = s.nextTask := rfl
@[simp] theorem nextTask_setTasks : (s.setTasks w tasks).nextTask = s.nextTask := rfl
@[simp] theorem nextTask_notify : (s.notify w).nextTask = s.nextTask := rfl
@[simp] theorem nextTask_setCall : (s.setCall t call).nextTask = s.nextTask := rfl
@[simp] theorem nextTask_setControl : (s.setControl control).nextTask = s.nextTask := rfl
@[simp] theorem nextTask_setStopped : (s.setStopped stopped).nextTask = s.nextTask := rfl
@[simp] theorem nextTask_numbered : s.numbered.nextTask = s.nextTask + 1 := rfl

end Updates

end PoolState

/-! ## One worker

What a worker can see: its queue, where its thread is, `stopped_`, and where the
thread is that starts and stops. -/

structure WorkerView where
  tasks : List PoolTask
  phase : WorkerPhase
  stopped : Bool
  control : PoolControl

def PoolState.view {n : ℕ} (s : PoolState n) (w : Fin n) : WorkerView where
  tasks := s.tasks w
  phase := s.phase w
  stopped := s.stopped
  control := s.control

/-- Everything that can happen in the view of worker `w` of `n`. -/
inductive WorkerStep (n w : ℕ) (v : WorkerView) : WorkerView → Prop where
  | other : WorkerStep n w v v
  | start (hcontrol : v.control = .rest) (hstopped : v.stopped = true) :
      WorkerStep n w v { v with stopped := false, control := .starting 0 }
  | spawn (hcontrol : v.control = .starting w) (hphase : v.phase = .absent) :
      WorkerStep n w v { v with phase := .ready, control := .starting (w + 1) }
  | spawnOther (i : ℕ) (hother : i ≠ w) (hcontrol : v.control = .starting i) :
      WorkerStep n w v { v with control := .starting (i + 1) }
  | started (hcontrol : v.control = .starting n) :
      WorkerStep n w v { v with control := .rest }
  | stop (hcontrol : v.control = .rest) :
      WorkerStep n w v { v with stopped := true, control := .notifying 0 }
  | notifyAll (hcontrol : v.control = .notifying w) :
      WorkerStep n w v
        { v with phase := v.phase.wake, control := .notifying (w + 1) }
  | notifyOther (i : ℕ) (hother : i ≠ w) (hcontrol : v.control = .notifying i) :
      WorkerStep n w v { v with control := .notifying (i + 1) }
  | notified (hcontrol : v.control = .notifying n) :
      WorkerStep n w v { v with control := .joining 0 }
  | join (hcontrol : v.control = .joining w)
      (hphase : v.phase = .absent ∨ v.phase = .returned) :
      WorkerStep n w v { v with phase := .absent, control := .joining (w + 1) }
  | joinOther (i : ℕ) (hother : i ≠ w) (hcontrol : v.control = .joining i) :
      WorkerStep n w v { v with control := .joining (i + 1) }
  | joined (hcontrol : v.control = .joining n) :
      WorkerStep n w v { v with control := .rest }
  | push (task : PoolTask) (hmutex : v.phase.holdsMutex = false)
      (hstopped : v.stopped = false) :
      WorkerStep n w v { v with tasks := v.tasks ++ [task] }
  | notifyOne : WorkerStep n w v { v with phase := v.phase.wake }
  | goOn (hphase : v.phase = .ready)
      (hpredicate : v.tasks ≠ [] ∨ v.stopped = true) :
      WorkerStep n w v { v with phase := .cleared }
  | wait (hphase : v.phase = .ready) (htasks : v.tasks = [])
      (hstopped : v.stopped = false) :
      WorkerStep n w v { v with phase := .waiting }
  | block (hphase : v.phase = .waiting) :
      WorkerStep n w v { v with phase := .blocked }
  | leave (hphase : v.phase = .cleared) (hstopped : v.stopped = true)
      (htasks : v.tasks = []) :
      WorkerStep n w v { v with phase := .returned }
  | take (task : PoolTask) (rest : List PoolTask) (hphase : v.phase = .cleared)
      (htasks : v.tasks = task :: rest) :
      WorkerStep n w v { v with tasks := rest, phase := .running task }
  | finish (task : PoolTask) (hphase : v.phase = .running task) :
      WorkerStep n w v { v with phase := .ready }

namespace PoolState

variable {n : ℕ} {s s' : PoolState n}

/-- A step of the pool is one in the view of each worker. -/
theorem view_step {l : PoolLabel n} (hstep : s.step l = some s') (w : Fin n) :
    WorkerStep n w (s.view w) (s'.view w) := by
  generalize hv : s.view w = v
  have hother : ∀ w' : Fin n, w ≠ w' → (w' : ℕ) ≠ w :=
    fun w' hw => Fin.val_ne_of_ne (Ne.symm hw)
  cases l <;>
    simp only [step, Option.ite_none_right_eq_some, Option.some.injEq] at hstep <;>
    obtain ⟨hguard, rfl⟩ := hstep <;> subst hv
  case start =>
    split
    · next hstopped => exact .start hguard hstopped
    · exact .other
  case spawn w' =>
    by_cases hw : w = w'
    · subst hw
      simpa [view] using WorkerStep.spawn (v := s.view w) hguard.1 hguard.2
    · simpa [view, hw] using
        WorkerStep.spawnOther (v := s.view w) w' (hother w' hw) hguard.1
  case started => exact .started hguard
  case stop => exact .stop hguard
  case notifyAll w' =>
    by_cases hw : w = w'
    · subst hw
      simpa [view] using WorkerStep.notifyAll (v := s.view w) hguard
    · simpa [view, hw] using
        WorkerStep.notifyOther (v := s.view w) w' (hother w' hw) hguard
  case notified => exact .notified hguard
  case join w' =>
    by_cases hw : w = w'
    · subst hw
      simpa [view] using WorkerStep.join (v := s.view w) hguard.1 hguard.2
    · simpa [view, hw] using
        WorkerStep.joinOther (v := s.view w) w' (hother w' hw) hguard.1
  case joined => exact .joined hguard
  case call => exact .other
  case check => exact .other
  case refuse => exact .other
  case refuseLocked => exact .other
  case push t w' task =>
    obtain ⟨-, -, hmutex, hstopped⟩ := hguard
    rw [Bool.not_eq_true] at hmutex hstopped
    by_cases hw : w = w'
    · subst hw
      simpa [view] using WorkerStep.push (v := s.view w) task hmutex hstopped
    · simpa [view, hw] using WorkerStep.other (v := s.view w)
  case notifyOne t w' task =>
    by_cases hw : w = w'
    · subst hw
      simpa [view] using WorkerStep.notifyOne (v := s.view w)
    · simpa [view, hw] using WorkerStep.other (v := s.view w)
  case evaluate w' =>
    by_cases hw : w = w'
    · subst hw
      cases hgo : s.mayGoOn w with
      | true =>
          have hpredicate : (s.view w).tasks ≠ [] ∨ (s.view w).stopped = true := by
            simpa [mayGoOn, view] using hgo
          simpa [view] using WorkerStep.goOn hguard hpredicate
      | false =>
          have hpredicate : (s.view w).tasks = [] ∧ (s.view w).stopped = false := by
            simpa [mayGoOn, view] using hgo
          simpa [view] using WorkerStep.wait hguard hpredicate.1 hpredicate.2
    · simpa [view, hw] using WorkerStep.other (v := s.view w)
  case block w' =>
    by_cases hw : w = w'
    · subst hw
      simpa [view] using WorkerStep.block (v := s.view w) hguard
    · simpa [view, hw] using WorkerStep.other (v := s.view w)
  case leave w' =>
    by_cases hw : w = w'
    · subst hw
      simpa [view] using
        WorkerStep.leave (v := s.view w) hguard.1 hguard.2.1 hguard.2.2
    · simpa [view, hw] using WorkerStep.other (v := s.view w)
  case take w' task =>
    by_cases hw : w = w'
    · subst hw
      simpa [view] using WorkerStep.take (v := s.view w) task (s.tasks w).tail
        hguard.1 (List.eq_cons_of_mem_head? hguard.2.2)
    · simpa [view, hw] using WorkerStep.other (v := s.view w)
  case finish w' task =>
    by_cases hw : w = w'
    · subst hw
      simpa [view] using WorkerStep.finish (v := s.view w) task hguard
    · simpa [view, hw] using WorkerStep.other (v := s.view w)

end PoolState

/-! ## Workers and the thread that starts and stops -/

/-- How a worker stands to `stopped_` and to the thread that starts and stops. -/
structure WorkerView.Sound (w : ℕ) (v : WorkerView) : Prop where
  absent : v.phase = .absent → v.tasks = [] ∨ ∃ i ≤ w, v.control = .starting i
  spawned : v.phase = .absent → v.stopped = false →
    ∃ i ≤ w, v.control = .starting i
  waiting : v.phase = .waiting → v.tasks = []
  cleared : v.phase = .cleared → v.tasks ≠ [] ∨ v.stopped = true
  returned : v.phase = .returned → v.tasks = [] ∧ v.stopped = true
  starting : ∀ i, v.control = .starting i → v.stopped = false
  unspawned : ∀ i, v.control = .starting i → i ≤ w → v.phase = .absent
  notifying : ∀ i, v.control = .notifying i → v.stopped = true
  joining : ∀ i, v.control = .joining i → v.stopped = true
  joined : ∀ i, v.control = .joining i → w < i → v.phase = .absent
  gone : v.control = .rest → v.stopped = true → v.phase = .absent

theorem WorkerPhase.wake_eq {phase : WorkerPhase} :
    phase.wake = phase ∨ phase = .blocked ∧ phase.wake = .ready := by
  cases phase <;> simp [wake]

theorem WorkerStep.sound {n w : ℕ} {v v' : WorkerView} (hstep : WorkerStep n w v v')
    (hw : w < n) (h : v.Sound w) : v'.Sound w := by
  obtain ⟨habsent, hspawned, hwaiting, hcleared, hreturned, hstarting, hunspawned,
    hnotifying, hjoining, hjoined, hgone⟩ := h
  cases hstep <;> constructor <;>
    first
    | assumption
    | grind -linarith -ring -ac [WorkerPhase.wake_eq, WorkerPhase.holdsMutex]

theorem PoolRun.sound {n : ℕ} (e : PoolRun n) (w : Fin n) :
    (e.state.view w).Sound w := by
  apply Execution.induct (P := fun e : PoolRun n =>
    (PoolState.view (Execution.state e) w).Sound w)
  · intro e _ hinit
    rw [show e.state = {} from hinit]
    constructor <;> simp [PoolState.view, PoolState.phase, PoolState.tasks]
  · intro e e' l ih hnext
    exact (PoolState.view_step hnext.1 w).sound w.isLt ih

/-! ## A notification for every task -/

theorem WorkerPhase.wake_ne_blocked (phase : WorkerPhase) :
    phase.wake ≠ .blocked := by
  cases phase <;> simp [wake]

namespace PoolState

variable {n : ℕ} {s s' : PoolState n} {w : Fin n}

/-- A call of `submit` is about to notify the worker. -/
def Owes (s : PoolState n) (w : Fin n) : Prop :=
  ∃ t task, s.calls t = some (.pushed, task) ∧ w.val = workerOf n task.key

/-- If the worker is blocked and has tasks, it will be notified. -/
def Awaited (s : PoolState n) (w : Fin n) : Prop :=
  s.phase w = .blocked → s.tasks w ≠ [] → s.Owes w

/-- A call that was not about to notify the worker goes on. -/
theorem Owes.setCall (h : s.Owes w) {t : ℕ}
    (hcall : ∀ task, s.calls t = some (.pushed, task) →
      w.val ≠ workerOf n task.key) (call : Option (SubmitPhase × PoolTask)) :
    (s.setCall t call).Owes w := by
  obtain ⟨t', task, hpushed, hworker⟩ := h
  refine ⟨t', task, ?_, hworker⟩
  rw [calls_setCall, if_neg]
  · exact hpushed
  · rintro rfl
    exact hcall task hpushed hworker

theorem Awaited.setCall (h : s.Awaited w) {t : ℕ}
    (hcall : ∀ task, s.calls t = some (.pushed, task) →
      w.val ≠ workerOf n task.key) (call : Option (SubmitPhase × PoolTask)) :
    (s.setCall t call).Awaited w :=
  fun hblocked htasks => (h hblocked htasks).setCall hcall call

theorem Awaited.setPhase (h : s.Awaited w) (w' : Fin n) {phase : WorkerPhase}
    (hphase : phase ≠ .blocked) : (s.setPhase w' phase).Awaited w := by
  intro hblocked htasks
  rw [phase_setPhase] at hblocked
  split at hblocked
  · exact absurd hblocked hphase
  · rw [tasks_setPhase] at htasks
    exact h hblocked htasks

theorem Awaited.setTasks (h : s.Awaited w) {w' : Fin n} (hother : w ≠ w')
    (tasks : List PoolTask) : (s.setTasks w' tasks).Awaited w := by
  intro hblocked htasks
  rw [phase_setTasks] at hblocked
  rw [tasks_setTasks, if_neg hother] at htasks
  exact h hblocked htasks

theorem awaited_step {l : PoolLabel n} (hstep : s.step l = some s')
    (hsound : (s.view w).Sound w) (h : s.Awaited w) : s'.Awaited w := by
  cases l <;>
    simp only [step, Option.ite_none_right_eq_some, Option.some.injEq] at hstep <;>
    obtain ⟨hguard, rfl⟩ := hstep
  case start =>
    split
    · exact h
    · exact h
  case spawn w' => exact h.setPhase w' (by decide)
  case started => exact h
  case stop => exact h
  case notifyAll w' => exact h.setPhase w' (WorkerPhase.wake_ne_blocked _)
  case notified => exact h
  case join w' => exact h.setPhase w' (by decide)
  case joined => exact h
  case call t key =>
    refine h.setCall (fun task htask => ?_) _
    rw [hguard] at htask
    cases htask
  case check t task =>
    refine h.setCall (fun task' htask => ?_) _
    rw [hguard.1] at htask
    cases htask
  case refuse t task =>
    refine h.setCall (fun task' htask => ?_) _
    rw [hguard.1] at htask
    cases htask
  case refuseLocked t w' task =>
    refine h.setCall (fun task' htask => ?_) _
    rw [hguard.1] at htask
    cases htask
  case push t w' task =>
    by_cases hw : w = w'
    · intro _ _
      exact ⟨t, task, by simp, hw ▸ hguard.2.1⟩
    · refine (h.setTasks hw _).setCall (fun task' htask => ?_) _
      rw [calls_setTasks, hguard.1] at htask
      cases htask
  case notifyOne t w' task =>
    by_cases hw : w = w'
    · intro hblocked
      simp [hw] at hblocked
      exact absurd hblocked (WorkerPhase.wake_ne_blocked _)
    · refine (h.setPhase w' (WorkerPhase.wake_ne_blocked _)).setCall
        (fun task' htask hworker => ?_) _
      rw [calls_setPhase, hguard.1] at htask
      cases htask
      exact hw (Fin.ext (hworker.trans hguard.2.symm))
  case evaluate w' =>
    refine h.setPhase w' ?_
    split
    · decide
    · decide
  case block w' =>
    by_cases hw : w = w'
    · intro _ htasks
      subst hw
      rw [tasks_setPhase] at htasks
      exact absurd (hsound.waiting hguard) htasks
    · intro hblocked htasks
      rw [phase_setPhase, if_neg hw] at hblocked
      rw [tasks_setPhase] at htasks
      exact h hblocked htasks
  case leave w' => exact h.setPhase w' (by decide)
  case take w' task =>
    by_cases hw : w = w'
    · intro hblocked
      simp [hw] at hblocked
    · exact (h.setTasks hw _).setPhase w' (by simp)
  case finish w' task => exact h.setPhase w' (by decide)

end PoolState

theorem PoolRun.awaited {n : ℕ} (e : PoolRun n) (w : Fin n) :
    e.state.Awaited w := by
  apply Execution.induct (P := fun e : PoolRun n =>
    PoolState.Awaited (Execution.state e) w)
  · intro e _ hinit hblocked
    rw [show e.state = {} from hinit] at hblocked
    cases hblocked
  · intro e e' l ih hnext
    exact PoolState.awaited_step hnext.1 (PoolRun.sound e w) ih

end ReliableDelivery
