import ReliableDelivery.Support.Interleaving
import ReliableDelivery.Support.Loans

/-!
# The pool of Redis connections

`RedisClient.cpp`.  Any number of threads create leases, move and assign them, close
and destroy them, run commands with them, and one thread destroys the client.  A step
is one section of code under the mutex, or one piece of code between two such
sections that touches a lease of its own thread and the slot of that lease.

A lease is known by its address.  A call of `acquire` has its lease from the moment
the slot is taken from `available_`, before the connection is looked at.  Commands
are run by `RedisClient::command` alone, which closes the connection after a failure
before it does anything else with the lease.
-/

namespace ReliableDelivery

open TransitionSystem

/-- A `redisContext`; no two of them are the same object. -/
structure RedisContext where
  id : ℕ
  err : Bool
  deriving DecidableEq, Repr

/-- Where the code is that works on a lease: nowhere, in `ensureConnected` before and
after `closeSlot`, in `command` after a failure, or in `release` after the section
under the mutex.  A release belongs to the destructor or to an assignment from
`other`. -/
inductive LeaseActivity where
  | idle
  | checking
  | connecting
  | broken
  | released (other : Option ℕ)
  deriving DecidableEq, Repr

structure Lease where
  client : Bool := false
  slotIndex : ℕ := 0
  context : Option ℕ := none
  activity : LeaseActivity := .idle
  deriving DecidableEq, Repr

namespace Lease

/-- What a move leaves behind. -/
def emptied (lease : Lease) : Lease :=
  { lease with client := false, context := none }

/-- The slot that a lease stands for, from the section of `acquire` that takes it to
the section of `releaseSlot` that gives it back. -/
def held (lease : Lease) : Option ℕ :=
  match lease.activity with
  | .released _ => none
  | _ => if lease.client then some lease.slotIndex else none

end Lease

/-- The client, and the leases by address.  The end of `available` is its back. -/
structure RedisPool where
  slots : ℕ → Option RedisContext := fun _ => none
  available : List ℕ
  borrowed : ℕ := 0
  stopping : Bool := false
  leases : ℕ → Option Lease := fun _ => none
  destroyed : Bool := false
  nextContext : ℕ := 0

/-- The steps.  `connect` has the outcome of `ConnectRedis`, and `command` has the
context it is run on, `err` afterwards and whether there is a reply. -/
inductive RedisLabel where
  | construct (a : ℕ)
  | acquire (a i : ℕ)
  | refuse (a : ℕ)
  | reuse (a : ℕ)
  | closeSlot (a : ℕ)
  | connect (a : ℕ) (connected : Bool)
  | command (a c : ℕ) (err reply : Bool)
  | close (a : ℕ)
  | move (a b : ℕ)
  | releaseSlot (a : ℕ) (other : Option ℕ)
  | assign (a b : ℕ)
  | destroy (a : ℕ)
  | stop
  | destroyed
  deriving DecidableEq, Repr

def isConnectionBroken (err reply : Bool) : Bool :=
  err || !reply

/-- The number of slots. -/
def slotCount (poolSize : ℕ) : ℕ :=
  if poolSize = 0 then 1 else poolSize

namespace RedisPool

def create (poolSize : ℕ) : RedisPool where
  available := (List.range (slotCount poolSize)).map fun i =>
    slotCount poolSize - i - 1

def setLease (s : RedisPool) (a : ℕ) (lease : Option Lease) : RedisPool :=
  { s with leases := Function.update s.leases a lease }

def setSlot (s : RedisPool) (i : ℕ) (context : Option RedisContext) :
    RedisPool :=
  { s with slots := Function.update s.slots i context }

/-- The connection that `ensureConnected` goes on with. -/
def reusable (s : RedisPool) (i : ℕ) : Option ℕ :=
  (s.slots i).bind fun context =>
    if context.err then none else some context.id

/-- What `hiredis` notes in a context. -/
def noteError (s : RedisPool) (c : ℕ) (err : Bool) : RedisPool :=
  { s with
    slots := fun i => (s.slots i).map fun context =>
      if context.id = c then { context with err } else context }

/-- The section of `releaseSlot` under the mutex. -/
def giveBack (s : RedisPool) (i : ℕ) : RedisPool :=
  { s with
    borrowed := if 0 < s.borrowed then s.borrowed - 1 else s.borrowed
    available := if s.stopping then s.available else s.available ++ [i] }

/-- The step under a label, if it is possible. -/
def step (s : RedisPool) : RedisLabel → Option RedisPool
  | .construct a =>
      if s.leases a = none then some (s.setLease a (some {})) else none
  | .acquire a i =>
      if s.leases a = none ∧ ¬s.stopping ∧ s.available.getLast? = some i then
        some (setLease
          { s with available := s.available.dropLast, borrowed := s.borrowed + 1 }
          a (some { client := true, slotIndex := i, activity := .checking }))
      else none
  | .refuse a =>
      if s.leases a = none ∧ s.stopping then some (s.setLease a (some {}))
      else none
  | .reuse a =>
      (s.leases a).bind fun lease =>
        if lease.activity = .checking ∧ s.reusable lease.slotIndex ≠ none then
          some (s.setLease a (some
            { lease with
              context := s.reusable lease.slotIndex, activity := .idle }))
        else none
  | .closeSlot a =>
      (s.leases a).bind fun lease =>
        if lease.activity = .checking ∧ s.reusable lease.slotIndex = none then
          some ((s.setSlot lease.slotIndex none).setLease a
            (some { lease with activity := .connecting }))
        else none
  | .connect a connected =>
      (s.leases a).bind fun lease =>
        if lease.activity = .connecting then
          let context := if connected then some ⟨s.nextContext, false⟩ else none
          some ((setSlot { s with nextContext := s.nextContext + 1 }
            lease.slotIndex context).setLease a
            (some
              { lease with
                context := context.map RedisContext.id, activity := .idle }))
        else none
  | .command a c err reply =>
      (s.leases a).bind fun lease =>
        if lease.activity = .idle ∧ lease.context = some c then
          some ((s.noteError c err).setLease a (some
            { lease with
              activity := if isConnectionBroken err reply then .broken
                else .idle }))
        else none
  | .close a =>
      (s.leases a).bind fun lease =>
        if lease.activity = .idle ∨ lease.activity = .broken then
          some (if lease.client then
              (s.setSlot lease.slotIndex none).setLease a
                (some { lease with context := none, activity := .idle })
            else s)
        else none
  | .move a b =>
      (s.leases b).bind fun lease =>
        if s.leases a = none ∧ lease.activity = .idle then
          some ((s.setLease a (some lease)).setLease b (some lease.emptied))
        else none
  | .releaseSlot a other =>
      (s.leases a).bind fun lease =>
        if lease.activity = .idle ∧ lease.client ∧ other ≠ some a then
          some ((s.giveBack lease.slotIndex).setLease a
            (some { lease with activity := .released other }))
        else none
  | .assign a b =>
      (s.leases a).bind fun target =>
        (s.leases b).bind fun lease =>
          if a = b ∧ lease.activity = .idle then some s
          else if a ≠ b ∧ lease.activity = .idle ∧
              (target.activity = .released (some b) ∨
                target.activity = .idle ∧ ¬target.client) then
            some ((s.setLease a (some lease)).setLease b (some lease.emptied))
          else none
  | .destroy a =>
      (s.leases a).bind fun lease =>
        if lease.activity = .released none ∨
            lease.activity = .idle ∧ ¬lease.client then
          some (s.setLease a none)
        else none
  | .stop => if s.stopping then none else some { s with stopping := true }
  | .destroyed =>
      if s.stopping ∧ ¬0 < s.borrowed ∧ ¬s.destroyed then
        some { s with destroyed := true }
      else none

end RedisPool

/-- All runs of a client with the given pool size. -/
def redisPool (poolSize : ℕ) : TransitionSystem RedisPool RedisLabel where
  init s := s = .create poolSize
  step s l s' := s.step l = some s'

namespace RedisPool

variable {s s' : RedisPool}

/-! ## Slots on loan -/

/-- The slot held by the lease at an address. -/
def held (s : RedisPool) (a : ℕ) : Option ℕ :=
  (s.leases a).bind Lease.held

/-- The slots as items on loan. -/
def loans (s : RedisPool) : Loans ℕ ℕ where
  holds := s.held
  free := s.available
  lent := s.borrowed
  closed := s.stopping

theorem held_of_lease {a : ℕ} {lease : Lease} (h : s.leases a = some lease) :
    s.held a = lease.held := by
  rw [held, h, Option.bind_some]

theorem held_of_none {a : ℕ} (h : s.leases a = none) : s.held a = none := by
  rw [held, h, Option.bind_none]

theorem held_setLease (a : ℕ) (lease : Option Lease) :
    (s.setLease a lease).held =
      Function.update s.held a (lease.bind Lease.held) := by
  funext x
  by_cases hx : x = a
  · subst hx
    simp [held, setLease]
  · simp [held, setLease, hx]

theorem loans_setLease (a : ℕ) (lease : Option Lease) :
    (s.setLease a lease).loans =
      s.loans.setHolder a (lease.bind Lease.held) := by
  rw [loans, held_setLease]
  rfl

/-- An update that leaves the slot with the lease is none for the loans. -/
theorem loans_setLease_same {a : ℕ} {lease : Option Lease}
    (h : lease.bind Lease.held = s.held a) : (s.setLease a lease).loans = s.loans := by
  rw [loans_setLease, h, Loans.setHolder]
  exact congrArg (fun holds => { s.loans with holds }) (Function.update_eq_self a s.held)

/-- A lease takes over what another one holds. -/
theorem loans_takeOver {a b : ℕ} {lease : Lease} (hne : a ≠ b)
    (ha : s.held a = none) (hb : s.leases b = some lease)
    (hidle : lease.activity = .idle) :
    s.loans.Step
      ((s.setLease a (some lease)).setLease b (some lease.emptied)).loans := by
  have hemptied : lease.emptied.held = none := by
    simp [Lease.held, Lease.emptied, hidle]
  have hheldb : s.held b = lease.held := held_of_lease hb
  cases hheld : lease.held with
  | none =>
      have hsame : ((s.setLease a (some lease)).setLease b
          (some lease.emptied)).loans = s.loans := by
        rw [loans_setLease_same, loans_setLease_same]
        · rw [Option.bind_some, hheld, ha]
        · rw [Option.bind_some, hemptied, held_setLease,
            Function.update_of_ne hne.symm, hheldb, hheld]
      rw [hsame]
      exact .other
  | some i =>
      have hpass : ((s.setLease a (some lease)).setLease b
          (some lease.emptied)).loans =
            (s.loans.setHolder b none).setHolder a (some i) := by
        rw [loans_setLease, loans_setLease, Option.bind_some, Option.bind_some,
          hemptied, hheld]
        simp only [Loans.setHolder, Function.update_comm hne]
      rw [hpass]
      exact .pass b a i (hheldb.trans hheld) ha

/-- A lease that is put at an address with the same slot, or with none as before. -/
theorem loans_keep {a : ℕ} {new : Option Lease}
    (h : new.bind Lease.held = s.held a) : s.loans.Step (s.setLease a new).loans := by
  rw [loans_setLease_same h]
  exact .other

/-- A lease that goes on keeps its slot. -/
theorem loans_goOn {a : ℕ} {lease new : Lease} (hlease : s.leases a = some lease)
    (hheld : new.held = lease.held) :
    s.loans.Step (s.setLease a (some new)).loans :=
  loans_keep (hheld.trans (held_of_lease hlease).symm)

theorem loans_acquire {a i : ℕ} {lease : Lease} (hheld : lease.held = some i)
    (hfree : s.leases a = none) (hopen : ¬s.stopping = true)
    (hlast : s.available.getLast? = some i) :
    s.loans.Step (setLease
      { s with available := s.available.dropLast, borrowed := s.borrowed + 1 } a
      (some lease)).loans := by
  obtain ⟨rest, hrest⟩ := List.getLast?_eq_some_iff.mp hlast
  have hdrop : s.available.dropLast = rest := by
    rw [hrest, List.dropLast_concat]
  have havailable : s.loans.free = i ::ₘ (rest : Multiset ℕ) := by
    show (s.available : Multiset ℕ) = _
    rw [hrest, ← Multiset.coe_add, add_comm]
    rfl
  have hlend := Loans.Step.lend (L := s.loans) a i rest
    (Bool.not_eq_true _ ▸ hopen) havailable (held_of_none hfree)
  rw [loans_setLease, Option.bind_some, hheld, hdrop]
  exact hlend

theorem loans_giveBack {a i : ℕ} {lease new : Lease}
    (hlease : s.leases a = some lease) (hheld : lease.held = some i)
    (hnew : new.held = none) :
    s.loans.Step ((s.giveBack i).setLease a (some new)).loans := by
  have hback := Loans.Step.giveBack (L := s.loans) a i
    ((held_of_lease hlease).trans hheld)
  have hfree : ((if s.stopping then s.available else s.available ++ [i] : List ℕ) :
      Multiset ℕ) = if s.stopping then (s.available : Multiset ℕ)
        else i ::ₘ (s.available : Multiset ℕ) := by
    split
    · rfl
    · rw [← Multiset.coe_add, add_comm]
      rfl
  have hlent : (if 0 < s.borrowed then s.borrowed - 1 else s.borrowed) =
      s.borrowed - 1 := by
    split
    · rfl
    · omega
  convert hback using 1
  rw [loans_setLease, Option.bind_some, hnew]
  simp only [loans, giveBack, Loans.setHolder, hfree, hlent]
  rfl

/-- A step of the client lends a slot, takes it back, passes it on, or leaves the
loans as they are. -/
theorem loans_step {l : RedisLabel} (hstep : s.step l = some s') :
    s.loans.Step s'.loans := by
  cases l <;>
    simp only [step, Option.bind_eq_some_iff, Option.ite_none_right_eq_some,
      Option.ite_none_left_eq_some, Option.some.injEq] at hstep
  case construct a =>
    obtain ⟨hfree, rfl⟩ := hstep
    exact loans_keep (held_of_none hfree).symm
  case acquire a i =>
    obtain ⟨⟨hfree, hopen, hlast⟩, rfl⟩ := hstep
    exact loans_acquire rfl hfree hopen hlast
  case refuse a =>
    obtain ⟨⟨hfree, -⟩, rfl⟩ := hstep
    exact loans_keep (held_of_none hfree).symm
  case reuse a =>
    obtain ⟨lease, hlease, ⟨hactivity, -⟩, rfl⟩ := hstep
    exact loans_goOn hlease (by simp [Lease.held, hactivity])
  case closeSlot a =>
    obtain ⟨lease, hlease, ⟨hactivity, -⟩, rfl⟩ := hstep
    exact loans_goOn (s := s.setSlot _ _) hlease (by simp [Lease.held, hactivity])
  case connect a connected =>
    obtain ⟨lease, hlease, hactivity, rfl⟩ := hstep
    exact loans_goOn (s := RedisPool.setSlot { s with nextContext := _ } _ _) hlease
      (by simp [Lease.held, hactivity])
  case command a c err reply =>
    obtain ⟨lease, hlease, ⟨hactivity, -⟩, rfl⟩ := hstep
    refine loans_goOn (s := s.noteError _ _) hlease ?_
    cases hbroken : isConnectionBroken err reply with
    | true => simp [Lease.held, hactivity]
    | false => simp [Lease.held, hactivity]
  case close a =>
    obtain ⟨lease, hlease, hactivity, rfl⟩ := hstep
    split
    · refine loans_goOn (s := s.setSlot _ _) hlease ?_
      rcases hactivity with hactivity | hactivity
      · simp [Lease.held, hactivity]
      · simp [Lease.held, hactivity]
    · exact .other
  case move a b =>
    obtain ⟨lease, hlease, ⟨hfree, hactivity⟩, rfl⟩ := hstep
    have hne : a ≠ b := by
      rintro rfl
      rw [hlease] at hfree
      cases hfree
    exact loans_takeOver hne (held_of_none hfree) hlease hactivity
  case releaseSlot a other =>
    obtain ⟨lease, hlease, ⟨hactivity, hclient, -⟩, rfl⟩ := hstep
    refine loans_giveBack hlease ?_ ?_
    · simp [Lease.held, hactivity, hclient]
    · simp [Lease.held]
  case assign a b =>
    obtain ⟨target, htarget, lease, hlease, hassign⟩ := hstep
    split at hassign
    · rw [Option.some.injEq] at hassign
      rw [← hassign]
      exact .other
    · rw [Option.ite_none_right_eq_some, Option.some.injEq] at hassign
      obtain ⟨⟨hne, hactivity, htargetActivity⟩, rfl⟩ := hassign
      refine loans_takeOver hne ?_ hlease hactivity
      rw [held_of_lease htarget]
      rcases htargetActivity with hreleased | ⟨hidle, hclient⟩
      · simp [Lease.held, hreleased]
      · simp [Lease.held, hidle, hclient]
  case destroy a =>
    obtain ⟨lease, hlease, hactivity, rfl⟩ := hstep
    apply loans_keep
    rw [held_of_lease hlease]
    rcases hactivity with hreleased | ⟨hidle, hclient⟩
    · simp [Lease.held, hreleased]
    · simp [Lease.held, hidle, hclient]
  case stop =>
    obtain ⟨-, rfl⟩ := hstep
    exact .close
  case destroyed =>
    obtain ⟨-, rfl⟩ := hstep
    exact .other

/-! ## All runs -/

theorem nodup_create (poolSize : ℕ) : (create poolSize).available.Nodup := by
  refine List.Nodup.map_on ?_ List.nodup_range
  intro i hi j hj heq
  rw [List.mem_range] at hi hj
  omega

theorem mem_create {poolSize i : ℕ} :
    i ∈ (create poolSize).available ↔ i < slotCount poolSize := by
  simp only [create, List.mem_map, List.mem_range]
  constructor
  · rintro ⟨j, hj, rfl⟩
    omega
  · intro hi
    exact ⟨slotCount poolSize - i - 1, by omega, by omega⟩

/-- The loans are in order at every point of every run. -/
theorem loans_sound {poolSize : ℕ} (e : (redisPool poolSize).Execution) :
    e.state.loans.Sound {i | i < slotCount poolSize} := by
  apply Execution.induct (P := fun e : (redisPool poolSize).Execution =>
    e.state.loans.Sound {i | i < slotCount poolSize})
  · intro e _ hinit
    have hstate : e.state = create poolSize := hinit
    have hfree : ((create poolSize).available : Multiset ℕ).Nodup :=
      Multiset.coe_nodup.mpr (nodup_create poolSize)
    have hloans : (create poolSize).loans =
        { holds := fun _ => none, free := (create poolSize).available } := by
      rw [loans]
      congr
    have hitems : {i | i < slotCount poolSize} =
        {i | i ∈ ((create poolSize).available : Multiset ℕ)} :=
      Set.ext fun i => mem_create.symm
    rw [hstate, hloans, hitems]
    exact Loans.sound_init hfree
  · intro e e' l ih hnext
    exact ih.step (loans_step hnext.1)

/-- The leases that are alive. -/
def live (s : RedisPool) : Set ℕ :=
  {a | ∃ i, s.held a = some i}

theorem live_eq_holders (s : RedisPool) : s.live = s.loans.holders := by
  ext a
  exact Option.ne_none_iff_exists'.symm

/-- The destructor waits for the leases. -/
theorem live_of_destroyed {poolSize : ℕ} {e e' : (redisPool poolSize).Execution}
    (hnext : e.Next .destroyed e') : e'.state.live = ∅ := by
  have hstep : e.state.step .destroyed = some e'.state := hnext.1
  simp only [step, Option.ite_none_right_eq_some, Option.some.injEq] at hstep
  obtain ⟨⟨-, hborrowed, -⟩, hstate⟩ := hstep
  have hsound := loans_sound e'
  have hlent : e'.state.loans.lent = 0 := by
    rw [← hstate]
    show e.state.borrowed = 0
    omega
  rw [live_eq_holders, ← Set.ncard_eq_zero hsound.finite, ← hsound.counted]
  exact hlent

end RedisPool

end ReliableDelivery
