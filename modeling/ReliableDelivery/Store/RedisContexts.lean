import ReliableDelivery.Store.RedisPool

/-!
# The connections of the pool

A connection belongs to one slot, and to the lease that holds the slot.  After a
failed command the lease closes it before anything else happens to the slot, so that
nobody meets it again.
-/

namespace ReliableDelivery

open TransitionSystem

namespace RedisPool

variable {s s' : RedisPool}

/-- The context in a slot. -/
def contextId (s : RedisPool) (i : ℕ) : Option ℕ :=
  (s.slots i).map RedisContext.id

theorem reusable_eq_some {i c : ℕ} (h : s.reusable i = some c) :
    s.contextId i = some c := by
  obtain ⟨context, hslot, hcontext⟩ := Option.bind_eq_some_iff.mp h
  split at hcontext
  · cases hcontext
  · rw [contextId, hslot, Option.map_some, hcontext]

@[simp] theorem contextId_setLease (a : ℕ) (lease : Option Lease) :
    (s.setLease a lease).contextId = s.contextId :=
  rfl

theorem contextId_setSlot (i : ℕ) (context : Option RedisContext) :
    (s.setSlot i context).contextId =
      Function.update s.contextId i (context.map RedisContext.id) := by
  funext j
  by_cases hj : j = i
  · subst hj
    simp [contextId, setSlot]
  · simp [contextId, setSlot, hj]

@[simp] theorem contextId_noteError (c : ℕ) (err : Bool) :
    (s.noteError c err).contextId = s.contextId := by
  funext i
  cases hslot : s.slots i with
  | none => simp [contextId, noteError, hslot]
  | some context =>
      by_cases hc : context.id = c
      · simp [contextId, noteError, hslot, hc]
      · simp [contextId, noteError, hslot, hc]

theorem leases_setLease (a b : ℕ) (lease : Option Lease) :
    (s.setLease a lease).leases b = if b = a then lease else s.leases b :=
  Function.update_apply ..

end RedisPool

/-- What is true of a lease when the slots have the contexts `ids`. -/
structure Lease.Fits (ids : ℕ → Option ℕ) (lease : Lease) : Prop where
  vacant : lease.client = false → lease.context = none ∧ lease.activity = .idle
  unconnected : lease.activity = .checking ∨ lease.activity = .connecting →
    lease.context = none
  current : ∀ i c, lease.held = some i → lease.context = some c → ids i = some c

theorem Lease.fits_default (ids : ℕ → Option ℕ) : Lease.Fits ids {} := by
  constructor
  · exact fun _ => ⟨rfl, rfl⟩
  · exact fun _ => rfl
  · intro i c _ hcontext
    cases hcontext

/-- A lease with a slot and no context. -/
theorem Lease.fits_of_none {ids : ℕ → Option ℕ} {lease : Lease}
    (hclient : lease.client = true) (hcontext : lease.context = none) :
    lease.Fits ids := by
  constructor
  · intro hvacant
    rw [hclient] at hvacant
    cases hvacant
  · exact fun _ => hcontext
  · intro i c _ hc
    rw [hcontext] at hc
    cases hc

theorem Lease.fits_emptied {ids : ℕ → Option ℕ} {lease : Lease}
    (h : lease.activity = .idle) : lease.emptied.Fits ids := by
  constructor
  · exact fun _ => ⟨rfl, h⟩
  · exact fun _ => rfl
  · intro i c _ hcontext
    cases hcontext

theorem Lease.held_of_client {lease : Lease} (hclient : lease.client = true)
    (hactivity : ∀ other, lease.activity ≠ .released other) :
    lease.held = some lease.slotIndex := by
  rw [Lease.held]
  split
  · next other hreleased => exact absurd hreleased (hactivity other)
  · rw [if_pos hclient]

/-- A lease with a context, or with work in progress, belongs to a client. -/
theorem Lease.Fits.client {ids : ℕ → Option ℕ} {lease : Lease} (h : lease.Fits ids)
    (hbusy : lease.context ≠ none ∨ lease.activity ≠ .idle) :
    lease.client = true := by
  by_contra hclient
  obtain ⟨hcontext, hidle⟩ := h.vacant (Bool.not_eq_true _ ▸ hclient)
  rcases hbusy with hbusy | hbusy
  · exact hbusy hcontext
  · exact hbusy hidle

theorem Lease.Fits.held {ids : ℕ → Option ℕ} {lease : Lease} (h : lease.Fits ids)
    (hbusy : lease.context ≠ none ∨ lease.activity ≠ .idle)
    (hactivity : ∀ other, lease.activity ≠ .released other) :
    lease.held = some lease.slotIndex :=
  Lease.held_of_client (h.client hbusy) hactivity

/-- A lease that is about to be handed out has the context of its slot. -/
theorem Lease.fits_connected {ids : ℕ → Option ℕ} {lease : Lease}
    (hclient : lease.client = true) (hactivity : lease.activity = .idle)
    (hcontext : ∀ c, lease.context = some c → ids lease.slotIndex = some c) :
    lease.Fits ids := by
  have hheld : lease.held = some lease.slotIndex :=
    Lease.held_of_client hclient (by simp [hactivity])
  refine ⟨?_, ?_, ?_⟩
  · intro hvacant
    rw [hclient] at hvacant
    cases hvacant
  · simp [hactivity]
  · intro i c hi hc
    rw [hheld, Option.some.injEq] at hi
    exact hi ▸ hcontext c hc

namespace RedisPool

variable {s s' : RedisPool}

/-- Every lease fits, contexts are not shared, and a context that has failed is in no
slot, or in one whose lease is about to close it. -/
structure ContextsSound (failed : List ℕ) (s : RedisPool) : Prop where
  fits : ∀ a lease, s.leases a = some lease → lease.Fits s.contextId
  issued : ∀ i c, s.contextId i = some c → c < s.nextContext
  unshared : ∀ i j c, s.contextId i = some c → s.contextId j = some c → i = j
  failedIssued : ∀ c ∈ failed, c < s.nextContext
  closing : ∀ c ∈ failed, ∀ i, s.contextId i = some c →
    ∃ a lease, s.leases a = some lease ∧ lease.activity = .broken ∧
      lease.held = some i

/-- The slots stay as they are. -/
theorem ContextsSound.setLease {failed : List ℕ} {a : ℕ} {new : Option Lease}
    (h : s.ContextsSound failed)
    (hfits : ∀ lease, new = some lease → lease.Fits s.contextId)
    (hold : ∀ lease, s.leases a = some lease → lease.activity ≠ .broken) :
    (s.setLease a new).ContextsSound failed where
  fits := by
    intro b lease hlease
    rw [leases_setLease] at hlease
    split at hlease
    · exact hfits lease hlease
    · exact h.fits b lease hlease
  issued := h.issued
  unshared := h.unshared
  failedIssued := h.failedIssued
  closing := by
    intro c hc i hi
    obtain ⟨b, lease, hlease, hbroken, hheld⟩ := h.closing c hc i hi
    refine ⟨b, lease, ?_, hbroken, hheld⟩
    rw [leases_setLease, if_neg]
    · exact hlease
    · rintro rfl
      exact hold lease hlease hbroken

/-- A lease gives its slot another context, or none. -/
theorem ContextsSound.setSlot {failed : List ℕ} {a i next : ℕ} {old new : Lease}
    {context : Option RedisContext} (h : s.ContextsSound failed)
    (hexclusive : ∀ a b i, s.held a = some i → s.held b = some i → a = b)
    (hold : s.leases a = some old) (hheld : old.held = some i)
    (hnext : s.nextContext ≤ next)
    (hfresh : ∀ x, context = some x → s.nextContext ≤ x.id ∧ x.id < next)
    (hfits : new.Fits (Function.update s.contextId i (context.map RedisContext.id))) :
    ((RedisPool.setSlot { s with nextContext := next } i context).setLease a
      (some new)).ContextsSound failed := by
  have hids : ∀ j c, ((RedisPool.setSlot { s with nextContext := next } i
      context).setLease a (some new)).contextId j = some c →
        (j = i ∧ ∃ x, context = some x ∧ x.id = c) ∨
          j ≠ i ∧ s.contextId j = some c := by
    intro j c hj
    rw [contextId_setLease, contextId_setSlot] at hj
    by_cases hji : j = i
    · rw [hji, Function.update_self, Option.map_eq_some_iff] at hj
      exact .inl ⟨hji, hj⟩
    · rw [Function.update_of_ne hji] at hj
      exact .inr ⟨hji, hj⟩
  constructor
  · intro b lease hlease
    rw [leases_setLease] at hlease
    rw [contextId_setLease, contextId_setSlot]
    split at hlease
    · rw [Option.some.injEq] at hlease
      exact hlease ▸ hfits
    · next hne =>
        have hfits := h.fits b lease hlease
        refine ⟨hfits.vacant, hfits.unconnected, fun j c hj hc => ?_⟩
        rw [Function.update_of_ne]
        · exact hfits.current j c hj hc
        · rintro rfl
          exact hne (hexclusive b a j ((held_of_lease hlease).trans hj)
            ((held_of_lease hold).trans hheld))
  · intro j c hj
    rcases hids j c hj with ⟨-, x, hx, rfl⟩ | ⟨-, hj⟩
    · exact (hfresh x hx).2
    · exact (h.issued j c hj).trans_le hnext
  · intro j k c hj hk
    rcases hids j c hj with ⟨rfl, x, hx, rfl⟩ | ⟨-, hj⟩
    · rcases hids k _ hk with ⟨rfl, -⟩ | ⟨-, hk⟩
      · rfl
      · exact absurd (h.issued k _ hk) (hfresh x hx).1.not_gt
    · rcases hids k c hk with ⟨-, x, hx, rfl⟩ | ⟨-, hk⟩
      · exact absurd (h.issued j _ hj) (hfresh x hx).1.not_gt
      · exact h.unshared j k c hj hk
  · exact fun c hc => (h.failedIssued c hc).trans_le hnext
  · intro c hc j hj
    rcases hids j c hj with ⟨-, x, hx, rfl⟩ | ⟨hji, hj⟩
    · exact absurd (h.failedIssued _ hc) (hfresh x hx).1.not_gt
    · obtain ⟨b, lease, hlease, hbroken, hb⟩ := h.closing c hc j hj
      refine ⟨b, lease, ?_, hbroken, hb⟩
      rw [leases_setLease, if_neg]
      · exact hlease
      · rintro rfl
        rw [hold, Option.some.injEq] at hlease
        rw [← hlease, hheld, Option.some.injEq] at hb
        exact hji hb.symm

/-- A command fails. -/
theorem ContextsSound.fail {failed : List ℕ} {a c : ℕ} {lease : Lease}
    (h : s.ContextsSound failed) (hlease : s.leases a = some lease)
    (hidle : lease.activity = .idle) (hcontext : lease.context = some c) :
    (s.setLease a (some { lease with activity := .broken })).ContextsSound
      (failed ++ [c]) := by
  have hfits := h.fits a lease hlease
  have hheld : lease.held = some lease.slotIndex := by
    refine hfits.held (.inl ?_) ?_
    · simp [hcontext]
    · simp [hidle]
  have hclient := hfits.client (.inl (by simp [hcontext]))
  have hheld' : ({ lease with activity := .broken } : Lease).held =
      some lease.slotIndex := by
    simp [Lease.held, hclient]
  have hslot := hfits.current _ c hheld hcontext
  constructor
  · intro b new hnew
    rw [leases_setLease] at hnew
    split at hnew
    · rw [Option.some.injEq] at hnew
      subst hnew
      refine ⟨?_, ?_, ?_⟩
      · simp [hclient]
      · simp
      · intro i c' hi hc'
        rw [hheld'] at hi
        exact hfits.current i c' (hheld.trans hi) hc'
    · exact h.fits b new hnew
  · exact h.issued
  · exact h.unshared
  · intro c' hc'
    rcases List.mem_append.mp hc' with hc' | hc'
    · exact h.failedIssued c' hc'
    · rw [List.mem_singleton.mp hc']
      exact h.issued _ c hslot
  · intro c' hc' i hi
    rw [contextId_setLease] at hi
    by_cases heq : i = lease.slotIndex
    · refine ⟨a, _, ?_, rfl, hheld'.trans (congrArg some heq.symm)⟩
      rw [leases_setLease, if_pos rfl]
    · rcases List.mem_append.mp hc' with hc' | hc'
      · obtain ⟨b, other, hother, hbroken, hb⟩ := h.closing c' hc' i hi
        refine ⟨b, other, ?_, hbroken, hb⟩
        rw [leases_setLease, if_neg]
        · exact hother
        · rintro rfl
          rw [hlease, Option.some.injEq] at hother
          rw [← hother, hidle] at hbroken
          cases hbroken
      · rw [List.mem_singleton.mp hc'] at hi
        exact absurd (h.unshared i _ c hi hslot) heq

end RedisPool

/-- The context that a command has failed on. -/
def failedContext : RedisLabel → Option ℕ
  | .command _ c err reply => if isConnectionBroken err reply then some c else none
  | _ => none

namespace RedisPool

variable {s s' : RedisPool}

theorem ContextsSound.noteError {failed : List ℕ} (h : s.ContextsSound failed)
    (c : ℕ) (err : Bool) : (s.noteError c err).ContextsSound failed := by
  constructor
  · rw [contextId_noteError]
    exact h.fits
  · rw [contextId_noteError]
    exact h.issued
  · rw [contextId_noteError]
    exact h.unshared
  · exact h.failedIssued
  · rw [contextId_noteError]
    exact h.closing

/-- A lease is moved, and what it leaves behind has no context. -/
theorem ContextsSound.takeOver {failed : List ℕ} {a b : ℕ} {lease : Lease}
    (h : s.ContextsSound failed) (hne : a ≠ b)
    (ha : ∀ target, s.leases a = some target → target.activity ≠ .broken)
    (hb : s.leases b = some lease) (hidle : lease.activity = .idle) :
    ((s.setLease a (some lease)).setLease b
      (some lease.emptied)).ContextsSound failed := by
  apply ContextsSound.setLease
  · apply h.setLease _ ha
    rintro new ⟨⟩
    exact h.fits b lease hb
  · rintro new ⟨⟩
    exact Lease.fits_emptied hidle
  · intro old hold
    rw [leases_setLease, if_neg hne.symm, hb, Option.some.injEq] at hold
    rw [← hold, hidle]
    exact LeaseActivity.noConfusion

/-- A lease that is not broken goes on, or goes. -/
theorem ContextsSound.goOn {failed : List ℕ} {a : ℕ} {lease : Lease}
    {new : Option Lease} (h : s.ContextsSound failed)
    (hlease : s.leases a = some lease) (hactivity : lease.activity ≠ .broken)
    (hfits : ∀ x, new = some x → x.Fits s.contextId) :
    (s.setLease a new).ContextsSound failed := by
  apply h.setLease hfits
  intro old hold
  rw [hlease, Option.some.injEq] at hold
  exact hold ▸ hactivity

/-- A lease begins where none is. -/
theorem ContextsSound.begin {failed : List ℕ} {a : ℕ} {lease : Lease}
    (h : s.ContextsSound failed) (hfree : s.leases a = none)
    (hfits : lease.Fits s.contextId) :
    (s.setLease a (some lease)).ContextsSound failed := by
  apply h.setLease
  · rintro new ⟨⟩
    exact hfits
  · simp [hfree]

/-- `CloseRedis` leaves the slot without a context. -/
theorem ContextsSound.close {failed : List ℕ} {a : ℕ} {lease new : Lease}
    (h : s.ContextsSound failed)
    (hexclusive : ∀ a b i, s.held a = some i → s.held b = some i → a = b)
    (hlease : s.leases a = some lease)
    (hunreleased : ∀ other, lease.activity ≠ .released other)
    (hclient : lease.client = true) (hnew : new.client = true)
    (hcontext : new.context = none) :
    ((s.setSlot lease.slotIndex none).setLease a (some new)).ContextsSound failed := by
  apply h.setSlot hexclusive hlease (Lease.held_of_client hclient hunreleased) le_rfl
  · rintro x ⟨⟩
  · exact Lease.fits_of_none hnew hcontext

/-- A released lease has given its slot back. -/
theorem ContextsSound.giveBack {failed : List ℕ} {a : ℕ} {other : Option ℕ}
    {lease : Lease} (h : s.ContextsSound failed) (hlease : s.leases a = some lease)
    (hactivity : lease.activity = .idle) (hclient : lease.client = true) :
    ((s.giveBack lease.slotIndex).setLease a (some
      { lease with activity := .released other })).ContextsSound failed := by
  have hback : (s.giveBack lease.slotIndex).ContextsSound failed :=
    ⟨h.fits, h.issued, h.unshared, h.failedIssued, h.closing⟩
  refine hback.goOn hlease (by simp [hactivity]) ?_
  rintro new ⟨⟩
  refine ⟨?_, ?_, ?_⟩
  · exact fun hvacant => absurd hclient (Bool.not_eq_true _ ▸ hvacant)
  · simp
  · intro i c hheld _
    cases hheld

/-- `ConnectRedis` gives the slot a new context, or none. -/
theorem ContextsSound.connect {failed : List ℕ} {a : ℕ} {lease : Lease}
    (h : s.ContextsSound failed)
    (hexclusive : ∀ a b i, s.held a = some i → s.held b = some i → a = b)
    (hlease : s.leases a = some lease) (hactivity : lease.activity = .connecting)
    {context : Option RedisContext}
    (hcontext : ∀ x, context = some x → x.id = s.nextContext) :
    ((RedisPool.setSlot { s with nextContext := s.nextContext + 1 } lease.slotIndex
      context).setLease a (some
        { lease with
          context := context.map RedisContext.id
          activity := .idle })).ContextsSound failed := by
  have hclient := (h.fits a lease hlease).client (.inr (by simp [hactivity]))
  have hheld := Lease.held_of_client hclient (by simp [hactivity])
  apply h.setSlot hexclusive hlease hheld (Nat.le_succ _)
  · intro x hx
    rw [hcontext x hx]
    exact ⟨le_rfl, Nat.lt_succ_self _⟩
  · refine Lease.fits_connected hclient rfl fun c hc => ?_
    rw [Function.update_self]
    exact hc

/-- A command fails on its context, or the lease goes on. -/
theorem ContextsSound.command {failed : List ℕ} {a c : ℕ} {err reply : Bool}
    {lease : Lease} (h : s.ContextsSound failed) (hlease : s.leases a = some lease)
    (hactivity : lease.activity = .idle) (hcontext : lease.context = some c) :
    ((s.noteError c err).setLease a (some
      { lease with
        activity := if isConnectionBroken err reply then .broken
          else .idle })).ContextsSound
      (failed ++ (if isConnectionBroken err reply then some c else none).toList) := by
  have hnoted := h.noteError c err
  cases hbroken : isConnectionBroken err reply with
  | true => exact hnoted.fail hlease hactivity hcontext
  | false =>
      rw [if_neg Bool.false_ne_true, if_neg Bool.false_ne_true,
        Option.toList_none, List.append_nil]
      refine hnoted.goOn hlease (by simp [hactivity]) ?_
      rintro new ⟨⟩
      rw [← hactivity]
      exact hnoted.fits a lease hlease

/-- A step of the client keeps the contexts in order. -/
theorem contexts_step {failed : List ℕ} {l : RedisLabel}
    (hexclusive : ∀ a b i, s.held a = some i → s.held b = some i → a = b)
    (h : s.ContextsSound failed) (hstep : s.step l = some s') :
    s'.ContextsSound (failed ++ (failedContext l).toList) := by
  cases l <;>
    simp only [step, Option.bind_eq_some_iff, Option.ite_none_right_eq_some,
      Option.ite_none_left_eq_some, Option.some.injEq] at hstep <;>
    simp only [failedContext, Option.toList_none, List.append_nil]
  case construct a =>
    obtain ⟨hfree, rfl⟩ := hstep
    exact h.begin hfree (Lease.fits_default _)
  case acquire a i =>
    obtain ⟨⟨hfree, -, -⟩, rfl⟩ := hstep
    apply ContextsSound.begin
    · exact ⟨h.fits, h.issued, h.unshared, h.failedIssued, h.closing⟩
    · exact hfree
    · exact Lease.fits_of_none rfl rfl
  case refuse a =>
    obtain ⟨⟨hfree, -⟩, rfl⟩ := hstep
    exact h.begin hfree (Lease.fits_default _)
  case reuse a =>
    obtain ⟨lease, hlease, ⟨hactivity, -⟩, rfl⟩ := hstep
    have hclient := (h.fits a lease hlease).client (.inr (by simp [hactivity]))
    refine h.goOn hlease (by simp [hactivity]) ?_
    rintro new ⟨⟩
    exact Lease.fits_connected hclient rfl fun c hc => reusable_eq_some hc
  case closeSlot a =>
    obtain ⟨lease, hlease, ⟨hactivity, -⟩, rfl⟩ := hstep
    have hfits := h.fits a lease hlease
    have hclient := hfits.client (.inr (by simp [hactivity]))
    exact h.close hexclusive hlease (by simp [hactivity]) hclient hclient
      (hfits.unconnected (.inl hactivity))
  case connect a connected =>
    obtain ⟨lease, hlease, hactivity, rfl⟩ := hstep
    refine h.connect hexclusive hlease hactivity ?_
    intro x hx
    rw [Option.ite_none_right_eq_some, Option.some.injEq] at hx
    rw [← hx.2]
  case command a c err reply =>
    obtain ⟨lease, hlease, ⟨hactivity, hcontext⟩, rfl⟩ := hstep
    exact h.command hlease hactivity hcontext
  case close a =>
    obtain ⟨lease, hlease, hactivity, rfl⟩ := hstep
    split
    · next hclient =>
        refine h.close hexclusive hlease ?_ hclient hclient rfl
        rcases hactivity with hactivity | hactivity
        · simp [hactivity]
        · simp [hactivity]
    · exact h
  case move a b =>
    obtain ⟨lease, hlease, ⟨hfree, hactivity⟩, rfl⟩ := hstep
    have hne : a ≠ b := by
      rintro rfl
      rw [hlease] at hfree
      cases hfree
    exact h.takeOver hne (by simp [hfree]) hlease hactivity
  case releaseSlot a other =>
    obtain ⟨lease, hlease, ⟨hactivity, hclient, -⟩, rfl⟩ := hstep
    exact h.giveBack hlease hactivity hclient
  case assign a b =>
    obtain ⟨target, htarget, lease, hlease, hassign⟩ := hstep
    split at hassign
    · rw [Option.some.injEq] at hassign
      exact hassign ▸ h
    · rw [Option.ite_none_right_eq_some, Option.some.injEq] at hassign
      obtain ⟨⟨hne, hactivity, htargetActivity⟩, rfl⟩ := hassign
      refine h.takeOver hne ?_ hlease hactivity
      intro old hold
      rw [htarget, Option.some.injEq] at hold
      rcases htargetActivity with hreleased | ⟨hidle, -⟩
      · simp [← hold, hreleased]
      · simp [← hold, hidle]
  case destroy a =>
    obtain ⟨lease, hlease, hactivity, rfl⟩ := hstep
    refine h.goOn hlease ?_ (by rintro x ⟨⟩)
    rcases hactivity with hreleased | ⟨hidle, -⟩
    · simp [hreleased]
    · simp [hidle]
  case stop =>
    obtain ⟨-, rfl⟩ := hstep
    exact ⟨h.fits, h.issued, h.unshared, h.failedIssued, h.closing⟩
  case destroyed =>
    obtain ⟨-, rfl⟩ := hstep
    exact ⟨h.fits, h.issued, h.unshared, h.failedIssued, h.closing⟩

/-! ## All runs -/

/-- The contexts are in order at every point of every run. -/
theorem contexts_sound {poolSize : ℕ} (e : (redisPool poolSize).Execution) :
    e.state.ContextsSound (e.log failedContext) := by
  apply Execution.induct (P := fun e : (redisPool poolSize).Execution =>
    e.state.ContextsSound (e.log failedContext))
  · intro e hnil hinit
    have hstate : e.state = create poolSize := hinit
    rw [hstate, Execution.log_init hnil]
    constructor
    · rintro a lease ⟨⟩
    · rintro i c ⟨⟩
    · rintro i j c ⟨⟩
    · rintro c ⟨⟩
    · rintro c ⟨⟩
  · intro e e' l ih hnext
    rw [Execution.log_next hnext]
    exact contexts_step (loans_sound e).exclusive ih hnext.1

/-- A command is run on the context of a slot, and no command has failed on it. -/
theorem command_sound {poolSize : ℕ} {e e' : (redisPool poolSize).Execution}
    {a c : ℕ} {err reply : Bool} (hnext : e.Next (.command a c err reply) e') :
    (∃ i, e.state.held a = some i ∧ e.state.contextId i = some c) ∧
      c ∉ e.log failedContext := by
  have hsound := contexts_sound e
  have hstep : e.state.step (.command a c err reply) = some e'.state := hnext.1
  simp only [step, Option.bind_eq_some_iff, Option.ite_none_right_eq_some] at hstep
  obtain ⟨lease, hlease, ⟨hactivity, hcontext⟩, -⟩ := hstep
  have hfits := hsound.fits a lease hlease
  have hheld := hfits.held (.inl (by simp [hcontext])) (by simp [hactivity])
  have hslot := hfits.current _ c hheld hcontext
  refine ⟨⟨lease.slotIndex, (held_of_lease hlease).trans hheld, hslot⟩, ?_⟩
  intro hfailed
  obtain ⟨b, other, hother, hbroken, hb⟩ :=
    hsound.closing c hfailed lease.slotIndex hslot
  have hab : b = a := (loans_sound e).exclusive b a lease.slotIndex
    ((held_of_lease hother).trans hb) ((held_of_lease hlease).trans hheld)
  rw [hab, hlease, Option.some.injEq] at hother
  rw [← hother, hactivity] at hbroken
  cases hbroken

/-- What the pool promises to those who use it.  A slot has one lease, the leases are
counted, a slot is free or leased while the pool is open, a broken connection is not
used again, and the destructor leaves no lease behind. -/
theorem pool_safe (poolSize : ℕ) (e : (redisPool poolSize).Execution) :
    (∀ a b i, e.state.held a = some i → e.state.held b = some i → a = b) ∧
      (e.state.live.Finite ∧ e.state.borrowed = e.state.live.ncard) ∧
      (e.state.stopping = false → e.state.available.Nodup ∧
        (∀ a i, e.state.held a = some i → i ∉ e.state.available) ∧
        ∀ i, i < slotCount poolSize ↔
          i ∈ e.state.available ∨ ∃ a, e.state.held a = some i) ∧
      (∀ (e₁ e₂ : (redisPool poolSize).Execution) a c err reply,
        e₁.Next (.command a c err reply) e₂ → isConnectionBroken err reply →
        e₂.Later e → ∀ e' b err' reply',
          ¬e.Next (.command b c err' reply') e') ∧
      ∀ e', e.Next .destroyed e' → e.state.live = ∅ ∧ e'.state.live = ∅ := by
  have hsound := loans_sound e
  refine ⟨hsound.exclusive, ?_, ?_, ?_, ?_⟩
  · rw [live_eq_holders]
    exact ⟨hsound.finite, hsound.counted⟩
  · intro hopen
    refine ⟨Multiset.coe_nodup.mp hsound.nodup, hsound.separate, fun i => ?_⟩
    exact ⟨hsound.complete hopen i, hsound.known i⟩
  · intro e₁ e₂ a c err reply hfail hbroken hlater e' b err' reply' hnext
    refine (command_sound hnext).2 (Execution.mem_log.mpr ?_)
    exact ⟨_, hlater.mem_history hfail.mem_history, if_pos hbroken⟩
  · intro e' hnext
    have hstep : e.state.step .destroyed = some e'.state := hnext.1
    have hlive := live_of_destroyed hnext
    simp only [step, Option.ite_none_right_eq_some, Option.some.injEq] at hstep
    refine ⟨?_, hlive⟩
    rw [← hlive, ← hstep.2]
    rfl

/-- A connection breaks, the destructor is called, and the lease is given back. -/
example :
    ([.acquire 7 0, .closeSlot 7, .connect 7 true, .move 8 7, .destroy 7,
        .command 8 0 true false, .stop, .close 8, .refuse 9,
        .releaseSlot 8 none, .destroy 8, .destroyed].foldlM RedisPool.step
      (create 0)).map (fun s => (s.destroyed, s.borrowed, s.available)) =
        some (true, 0, []) := by
  rfl

end RedisPool

end ReliableDelivery
