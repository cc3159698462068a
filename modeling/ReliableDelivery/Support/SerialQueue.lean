import ReliableDelivery.Support.Interleaving

/-!
# Serial queues

A serial queue takes items in at its end, and works on one of them at a time,
beginning with the one in front.  So it begins and finishes the items in the order
in which it took them in, and it finishes one before it begins the next.  A system
that does this for one of its parts has a projection to a serial queue.
-/

/-- The items that wait, and the item that is worked on. -/
structure SerialQueue (α : Type) where
  waiting : List α := []
  current : Option α := none

namespace SerialQueue

open TransitionSystem

variable {α : Type}

inductive Label (α : Type) where
  | accept (a : α)
  | begin (a : α)
  | finish (a : α)

namespace Label

def accepted : Label α → Option α
  | accept a => some a
  | _ => none

def begun : Label α → Option α
  | begin a => some a
  | _ => none

def finished : Label α → Option α
  | finish a => some a
  | _ => none

end Label

open Label

/-- All runs of a serial queue. -/
def system (α : Type) : TransitionSystem (SerialQueue α) (Label α) where
  init q := q = {}
  step q l q' :=
    match l with
    | .accept a => q' = { q with waiting := q.waiting ++ [a] }
    | .begin a => q.current = none ∧ q.waiting = a :: q'.waiting ∧
        q'.current = some a
    | .finish a => q.current = some a ∧ q' = { q with current := none }

variable (e : (system α).Execution)

theorem log_begun :
    e.log begun = e.log finished ++ e.state.current.toList := by
  apply Execution.induct (P := fun e : (system α).Execution =>
    e.log begun = e.log finished ++ (Execution.state e).current.toList)
  · intro e hnil hinit
    rw [Execution.log_init hnil, Execution.log_init hnil,
      show e.state = {} from hinit]
    rfl
  · intro e e' l ih hnext
    rw [Execution.log_next hnext, Execution.log_next hnext, ih]
    cases l with
    | accept a =>
        rw [show e'.state = _ from hnext.1]
        simp [begun, finished]
    | begin a =>
        obtain ⟨hidle, -, hcurrent⟩ := hnext.1
        rw [hidle, hcurrent]
        simp [begun, finished]
    | finish a =>
        obtain ⟨hcurrent, hstate⟩ := hnext.1
        rw [hstate, hcurrent]
        simp [begun, finished]

theorem log_accepted : e.log accepted = e.log begun ++ e.state.waiting := by
  apply Execution.induct (P := fun e : (system α).Execution =>
    e.log accepted = e.log begun ++ (Execution.state e).waiting)
  · intro e hnil hinit
    rw [Execution.log_init hnil, Execution.log_init hnil,
      show e.state = {} from hinit]
    rfl
  · intro e e' l ih hnext
    rw [Execution.log_next hnext, Execution.log_next hnext, ih]
    cases l with
    | accept a =>
        rw [show e'.state = _ from hnext.1]
        simp [begun, accepted]
    | begin a =>
        obtain ⟨-, hwaiting, -⟩ := hnext.1
        rw [hwaiting]
        simp [begun, accepted]
    | finish a =>
        obtain ⟨-, hstate⟩ := hnext.1
        rw [hstate]
        simp [begun, accepted]

theorem begun_subset {a : α} (h : a ∈ e.log begun) : a ∈ e.log accepted := by
  rw [log_accepted]
  exact List.mem_append_left _ h

theorem finished_subset {a : α} (h : a ∈ e.log finished) : a ∈ e.log begun := by
  rw [log_begun]
  exact List.mem_append_left _ h

theorem nodup_begun (h : (e.log accepted).Nodup) : (e.log begun).Nodup := by
  rw [log_accepted] at h
  exact (List.nodup_append.mp h).1

/-- An item that is taken in once is begun once. -/
theorem not_mem_begun {e e' : (system α).Execution} {a : α}
    (hnext : e.Next (.begin a) e') (hnodup : (e.log accepted).Nodup) :
    a ∉ e.log begun := by
  obtain ⟨-, hwaiting, -⟩ := hnext.1
  rw [log_accepted, hwaiting] at hnodup
  intro hmem
  exact (List.nodup_append.mp hnodup).2.2 a hmem a List.mem_cons_self rfl

/-- An item that is begun once is finished once. -/
theorem not_mem_finished {e e' : (system α).Execution} {a : α}
    (hnext : e.Next (.finish a) e') (hnodup : (e.log begun).Nodup) :
    a ∉ e.log finished := by
  rw [log_begun, hnext.1.1] at hnodup
  intro hmem
  exact (List.nodup_append.mp hnodup).2.2 a hmem a List.mem_cons_self rfl

/-- What was taken in before an item is finished when the item is begun. -/
theorem finished_of_begin {e₁ e e' : (system α).Execution} {a b : α}
    (hlater : e₁.Later e) (ha : a ∈ e₁.log accepted) (hb : b ∉ e₁.log accepted)
    (hnext : e.Next (.begin b) e') : a ∈ e.log finished := by
  obtain ⟨hidle, hwaiting, -⟩ := hnext.1
  have hall : e.log accepted = e.log finished ++ b :: e'.state.waiting := by
    rw [log_accepted, log_begun, hidle, hwaiting]
    simp
  obtain ⟨more, hmore⟩ := hlater.log_extends accepted
  rw [hall] at hmore
  rcases List.append_eq_append_iff.mp hmore with
    ⟨between, hfinished, -⟩ | ⟨between, hbefore, hrest⟩
  · rw [hfinished]
    exact List.mem_append_left _ ha
  · cases between with
    | nil =>
        rw [hbefore, List.append_nil] at ha
        exact ha
    | cons c between =>
        rw [List.cons_append, List.cons.injEq] at hrest
        rw [hbefore, hrest.1] at hb
        exact absurd (List.mem_append_right _ List.mem_cons_self) hb

end SerialQueue
