import ReliableDelivery.Server.PoolProgress

/-!
# Stopping the thread pool

`stop` sets `stopped_` and notifies each worker without locking its mutex.  If the
notification comes after a worker has evaluated its predicate and before it blocks,
it is lost: the worker blocks, and `stop` waits for it for ever.  This is the only way
to leave a worker asleep.
-/

namespace ReliableDelivery

open TransitionSystem

/-- The call of `stop` that goes on has notified worker `w`. -/
def PoolControl.hasNotified (w : ℕ) : PoolControl → Prop
  | notifying i => w < i
  | joining _ => True
  | _ => False

namespace PoolState

variable {n : ℕ}

/-- The worker has been notified by `stop`, but it is blocked, it has no task, and
nobody will notify it. -/
def Stranded (s : PoolState n) (w : Fin n) : Prop :=
  s.control.hasNotified w ∧ s.phase w = .blocked ∧ s.tasks w = [] ∧ ¬s.Owes w

/-- `stop` notifies a worker that has evaluated its predicate to false and is not
blocked yet. -/
def Missed (s : PoolState n) (l : PoolLabel n) : Prop :=
  ∃ w, l = .notifyAll w ∧ s.phase w = .waiting

end PoolState

/-! ## Without a lost notification -/

section Awake

variable {n w : ℕ} {v v' : WorkerView}

/-- A worker that has been notified by `stop` is not going to sleep. -/
def WorkerView.Awake (w : ℕ) (v : WorkerView) : Prop :=
  v.control.hasNotified w → v.phase ≠ .waiting ∧ v.phase ≠ .blocked

theorem WorkerView.Sound.stopped_of_notified (h : v.Sound w)
    (hnotified : v.control.hasNotified w) : v.stopped = true := by
  cases hcontrol : v.control with
  | notifying i => exact h.notifying i hcontrol
  | joining i => exact h.joining i hcontrol
  | _ =>
      rw [hcontrol] at hnotified
      exact hnotified.elim

theorem WorkerPhase.wake_awake {phase : WorkerPhase} (h : phase ≠ .waiting) :
    phase.wake ≠ .waiting ∧ phase.wake ≠ .blocked := by
  cases phase <;> simp_all [wake]

theorem WorkerStep.awake (hstep : WorkerStep n w v v') (hw : w < n)
    (hsound : v.Sound w) (h : v.Awake w)
    (hkept : v.control = .notifying w → v'.control = .notifying (w + 1) →
      v.phase ≠ .waiting) : v'.Awake w := by
  have hstopped := hsound.stopped_of_notified
  cases hstep with
  | other => exact h
  | start => exact fun hnotified => hnotified.elim
  | spawn => exact fun hnotified => hnotified.elim
  | spawnOther => exact fun hnotified => hnotified.elim
  | started => exact fun hnotified => hnotified.elim
  | stop => exact fun hnotified => absurd hnotified (Nat.not_lt_zero w)
  | notifyAll hcontrol => exact fun _ => WorkerPhase.wake_awake (hkept hcontrol rfl)
  | notifyOther i hother hcontrol =>
      intro hnotified
      apply h
      rw [hcontrol]
      have hlt : w < i + 1 := hnotified
      exact lt_of_le_of_ne (Nat.le_of_lt_succ hlt) (Ne.symm hother)
  | notified hcontrol =>
      refine fun _ => h ?_
      rw [hcontrol]
      exact hw
  | join => exact fun _ => ⟨by simp, by simp⟩
  | joinOther i hother hcontrol =>
      refine fun _ => h ?_
      rw [hcontrol]
      trivial
  | joined => exact fun hnotified => hnotified.elim
  | push => exact h
  | notifyOne => exact fun hnotified => WorkerPhase.wake_awake (h hnotified).1
  | goOn => exact fun _ => ⟨by simp, by simp⟩
  | wait hphase htasks hnot =>
      intro hnotified
      rw [hstopped hnotified] at hnot
      cases hnot
  | block hphase => exact fun hnotified => absurd hphase (h hnotified).1
  | leave => exact fun _ => ⟨by simp, by simp⟩
  | take => exact fun _ => ⟨by simp, by simp⟩
  | finish => exact fun _ => ⟨by simp, by simp⟩

end Awake

/-- Only the notification of a worker takes `stop` past it. -/
theorem PoolState.notifyAll_of_control {n : ℕ} {s s' : PoolState n}
    {l : PoolLabel n} {w : Fin n} (hstep : s.step l = some s')
    (hcontrol : s.control = .notifying w)
    (hcontrol' : s'.control = .notifying (w + 1)) : l = .notifyAll w := by
  have hmoved : s'.control ≠ s.control := by
    rw [hcontrol, hcontrol']
    simp
  cases l <;>
    simp only [step, Option.ite_none_right_eq_some, Option.some.injEq] at hstep <;>
    obtain ⟨hguard, rfl⟩ := hstep
  case notifyAll w' =>
    rw [hcontrol, PoolControl.notifying.injEq] at hguard
    rw [Fin.ext hguard]
  case start =>
    rw [hguard] at hcontrol
    cases hcontrol
  case spawn => cases hcontrol'
  case started => cases hcontrol'
  case stop =>
    rw [hguard] at hcontrol
    cases hcontrol
  case notified => cases hcontrol'
  case join => cases hcontrol'
  case joined => cases hcontrol'
  all_goals exact absurd rfl hmoved

/-- If no notification of `stop` comes between the evaluation of a predicate and the
blocking of its worker, no worker is left asleep. -/
theorem never_stranded {n : ℕ} (e : PoolRun n)
    (hkept : ∀ step ∈ e.history, ¬step.1.Missed step.2) (w : Fin n) :
    ¬e.state.Stranded w := by
  have hawake : (e.state.view w).Awake w := by
    revert hkept
    apply Execution.induct (P := fun e : PoolRun n =>
      (∀ step ∈ e.history, ¬PoolState.Missed step.1 step.2) →
        (PoolState.view (Execution.state e) w).Awake w)
    · intro e _ hinit _ hnotified
      rw [show e.state = {} from hinit] at hnotified
      exact hnotified.elim
    · intro e e' l ih hnext hkept
      refine (PoolState.view_step hnext.1 w).awake w.isLt (PoolRun.sound e w)
        (ih fun step hstep => hkept step (hnext.later.mem_history hstep)) ?_
      intro hcontrol hcontrol' hwaiting
      exact hkept _ hnext.mem_history
        ⟨w, PoolState.notifyAll_of_control hnext.1 hcontrol hcontrol', hwaiting⟩
  rintro ⟨hnotified, hblocked, -⟩
  exact (hawake hnotified).2 hblocked

/-! ## With a lost notification -/

namespace PoolState

variable {n : ℕ} {s s' : PoolState n} {l : PoolLabel n} {w : Fin n}

/-- Once `stopped_` is set, no new notification becomes due. -/
theorem Owes.before (hstep : s.step l = some s') (hstopped : s.stopped = true)
    (h : s'.Owes w) : s.Owes w := by
  obtain ⟨t, task, hcall', hworker⟩ := h
  refine ⟨t, task, ?_, hworker⟩
  cases calls_step hstep with
  | same hcalls => rwa [hcalls] at hcall'
  | call t' key hcall hcalls =>
      rcases call_of_update hcalls hcall' with ⟨-, heq⟩ | ⟨-, hbefore⟩
      · cases heq
      · exact hbefore
  | check t' task' hcall hcalls =>
      rcases call_of_update hcalls hcall' with ⟨-, heq⟩ | ⟨-, hbefore⟩
      · cases heq
      · exact hbefore
  | push t' task' hcall hcalls hnumber haccepted =>
      obtain ⟨t'', w', rfl⟩ := PoolLabel.accepted_eq_some.mp haccepted
      rw [step, Option.ite_none_right_eq_some] at hstep
      exact absurd hstopped hstep.1.2.2.2
  | refuse t' phase task' hne hcall hcalls =>
      rcases call_of_update hcalls hcall' with ⟨-, heq⟩ | ⟨-, hbefore⟩
      · cases heq
      · exact hbefore
  | acknowledge t' task' hlabel hcall hcalls =>
      rcases call_of_update hcalls hcall' with ⟨-, heq⟩ | ⟨-, hbefore⟩
      · cases heq
      · exact hbefore

/-- Whoever could wake the worker or let `stop` go on is not there. -/
theorem Stranded.step (h : s.Stranded w) (hsound : (s.view w).Sound w)
    (hstep : s.step l = some s') : s'.Stranded w := by
  obtain ⟨hnotified, hblocked, htasks, howes⟩ := h
  have hstopped : s.stopped = true := hsound.stopped_of_notified hnotified
  have howes' : ¬s'.Owes w := fun h => howes (h.before hstep hstopped)
  have hother : ∀ w' : Fin n, s.phase w' ≠ .blocked → w ≠ w' := by
    rintro w' hne rfl
    exact hne hblocked
  suffices hsame : s'.control.hasNotified w ∧ s'.phase w = s.phase w ∧
      s'.tasks w = s.tasks w from
    ⟨hsame.1, hsame.2.1.trans hblocked, hsame.2.2.trans htasks, howes'⟩
  clear howes'
  cases l <;>
    simp only [PoolState.step, Option.ite_none_right_eq_some,
      Option.some.injEq] at hstep <;>
    obtain ⟨hguard, rfl⟩ := hstep
  case start =>
    rw [hguard] at hnotified
    exact hnotified.elim
  case spawn w' =>
    rw [hguard.1] at hnotified
    exact hnotified.elim
  case started =>
    rw [hguard] at hnotified
    exact hnotified.elim
  case stop =>
    rw [hguard] at hnotified
    exact hnotified.elim
  case notifyAll w' =>
    rw [hguard] at hnotified
    have hlt : w.val < w'.val := hnotified
    have hw : w ≠ w' := Fin.ne_of_lt hlt
    refine ⟨Nat.lt_succ_of_lt hlt, ?_, ?_⟩
    · simp [hw]
    · simp
  case notified => exact ⟨trivial, rfl, rfl⟩
  case join w' =>
    have hw : w ≠ w' := by
      apply hother
      rcases hguard.2 with hphase | hphase
      · simp [hphase]
      · simp [hphase]
    exact ⟨trivial, by simp [hw], by simp⟩
  case joined =>
    have habsent : s.phase w = .absent := hsound.joined n hguard w.isLt
    rw [habsent] at hblocked
    cases hblocked
  case call => exact ⟨hnotified, rfl, rfl⟩
  case check => exact ⟨hnotified, rfl, rfl⟩
  case refuse => exact ⟨hnotified, rfl, rfl⟩
  case refuseLocked => exact ⟨hnotified, rfl, rfl⟩
  case push => exact absurd hstopped hguard.2.2.2
  case notifyOne t w' task =>
    have hw : w ≠ w' := by
      rintro rfl
      exact howes ⟨t, task, hguard⟩
    exact ⟨hnotified, by simp [hw], by simp⟩
  case evaluate w' =>
    have hw := hother w' (by simp [hguard])
    exact ⟨hnotified, by simp [hw], by simp⟩
  case block w' =>
    have hw := hother w' (by simp [hguard])
    exact ⟨hnotified, by simp [hw], by simp⟩
  case leave w' =>
    have hw := hother w' (by simp [hguard.1])
    exact ⟨hnotified, by simp [hw], by simp⟩
  case take w' task =>
    have hw := hother w' (by simp [hguard.1])
    exact ⟨hnotified, by simp [hw], by simp [hw]⟩
  case finish w' task =>
    have hw := hother w' (by simp [hguard])
    exact ⟨hnotified, by simp [hw], by simp⟩

end PoolState

section Lost

variable {n : ℕ} {e e' : PoolRun n} {w : Fin n}

/-- A worker that is left asleep stays asleep, and `stop` never returns. -/
theorem stranded_forever (hlater : Execution.Later e e')
    (h : e.state.Stranded w) :
    e'.state.Stranded w ∧ e'.state.control ≠ .rest := by
  have hstranded : e'.state.Stranded w := by
    apply hlater.preserves (P := fun e => PoolState.Stranded (Execution.state e) w) h
    intro e₁ e₂ l hstranded hnext
    exact hstranded.step (PoolRun.sound e₁ w) hnext.1
  refine ⟨hstranded, fun hrest => ?_⟩
  have hnotified := hstranded.1
  rw [hrest] at hnotified
  exact hnotified.elim

/-- A notification of `stop` that is lost, with none of a `submit` to come, leaves the
worker asleep as soon as it blocks. -/
theorem stranded_of_missed (hnext : e.Next (.notifyAll w) e')
    (hwaiting : e.state.phase w = .waiting) (howes : ¬e.state.Owes w) :
    ∃ e'' : PoolRun n, e'.Next (.block w) e'' ∧ e''.state.Stranded w := by
  have hsound := PoolRun.sound e w
  have hstep : e.state.step (.notifyAll w) = some e'.state := hnext.1
  simp only [PoolState.step, Option.ite_none_right_eq_some,
    Option.some.injEq] at hstep
  obtain ⟨hcontrol, hstate⟩ := hstep
  have hwaiting' : e'.state.phase w = .waiting := by
    rw [← hstate]
    simp [hwaiting, WorkerPhase.wake]
  have hblock : e'.state.step (.block w) =
      some (e'.state.setPhase w .blocked) := if_pos hwaiting'
  refine ⟨_, Execution.next_extend e' hblock, ?_⟩
  change (e'.state.setPhase w .blocked).Stranded w
  rw [← hstate]
  refine ⟨Nat.lt_succ_self _, by simp, ?_, howes⟩
  have htasks : e.state.tasks w = [] := hsound.waiting hwaiting
  simp [htasks]

end Lost

/-! ## Concrete runs -/

/-- `stop` comes when worker `w` has evaluated its predicate. -/
def missedNotification {n : ℕ} (w : Fin n) : List (PoolLabel n) :=
  [.start, .spawn w, .started, .evaluate w, .stop, .notifyAll w, .block w]

/-- The worker sleeps, and `stop` waits for it for ever. -/
theorem notification_lost :
    ∃ (e : PoolRun 1) (w : Fin 1), e.state.Stranded w ∧
      ∀ e' : PoolRun 1, e.Later e' → e'.state.control ≠ .rest := by
  obtain ⟨e, hstate, -⟩ := exists_poolRun (missedNotification (0 : Fin 1))
  have hcalls : ∀ t, e.state.calls t = none := by
    rw [hstate]
    intro t
    rfl
  have hstranded : e.state.Stranded 0 := by
    refine ⟨?_, ?_, ?_, ?_⟩
    · rw [hstate]
      exact Nat.zero_lt_one
    · rw [hstate]
      decide +kernel
    · rw [hstate]
      decide +kernel
    · rintro ⟨t, task, hcall, -⟩
      rw [hcalls t] at hcall
      cases hcall
  exact ⟨e, 0, hstranded, fun e' hlater => (stranded_forever hlater hstranded).2⟩

/-- In the run with two tasks every notification arrives. -/
theorem never_stranded_samplePool :
    ∃ e : PoolRun 1, e.state.control = .joining 1 ∧ ¬e.state.Stranded 0 := by
  obtain ⟨e, hstate, hhistory⟩ := exists_poolRun samplePool
  refine ⟨e, ?_, never_stranded e ?_ 0⟩
  · rw [hstate]
    decide +kernel
  · rintro ⟨s, l⟩ hstep ⟨w, hlabel, hwaiting⟩
    rw [hhistory] at hstep
    have hnone : ∀ x ∈ ((poolDriver 1).trace {} samplePool).reverse,
        x.2 = .notifyAll 0 → x.1.phase 0 ≠ .waiting := by
      decide +kernel
    cases Fin.fin_one_eq_zero w
    exact hnone (s, l) hstep hlabel hwaiting

end ReliableDelivery
