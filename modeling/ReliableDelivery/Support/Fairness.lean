import Mathlib.Data.Set.Basic
import ReliableDelivery.Support.Interleaving

/-!
# Endless runs and fairness

An endless run is fair to a set of labels if it takes a step with one of them when
such a step stays possible for ever.  The rule `Endless.eventually` leads such a run
to a goal: at every point before the goal some set helps, and goes on helping until
one of its steps is taken, which brings the goal closer.
-/

namespace TransitionSystem

variable {σ ℓ : Type} {M : TransitionSystem σ ℓ}

/-- A step with one of the labels is possible. -/
def Enabled (M : TransitionSystem σ ℓ) (A : Set ℓ) (s : σ) : Prop :=
  ∃ l ∈ A, ∃ s', M.step s l s'

/-- A run without an end, by its points. -/
structure Endless (M : TransitionSystem σ ℓ) where
  point : ℕ → M.Execution
  label : ℕ → ℓ
  next : ∀ i, (point i).Next (label i) (point (i + 1))

namespace Endless

/-- The run is weakly fair to a set of labels. -/
def Fair (ρ : M.Endless) (A : Set ℓ) : Prop :=
  ∀ i, (∀ j, i ≤ j → M.Enabled A (ρ.point j).state) → ∃ j, i ≤ j ∧ ρ.label j ∈ A

variable {ι : Type} {A : ι → Set ℓ} {P goal : M.Execution → Prop}
  {helps : ι → M.Execution → Prop} {rank : M.Execution → ℕ}

/-- One set helps until the goal is reached or has come closer. -/
theorem closer (ρ : M.Endless) {a : ι} (hfair : ρ.Fair (A a))
    (henabled : ∀ e, P e → helps a e → M.Enabled (A a) e.state)
    (hstep : ∀ e e' l, P e → helps a e → e.Next l e' → goal e' ∨
      P e' ∧ (rank e' < rank e ∨ rank e' ≤ rank e ∧ l ∉ A a ∧ helps a e'))
    {i : ℕ} (hP : P (ρ.point i)) (hhelps : helps a (ρ.point i)) :
    ∃ j, i ≤ j ∧ (goal (ρ.point j) ∨
      P (ρ.point j) ∧ rank (ρ.point j) < rank (ρ.point i)) := by
  by_contra hnever
  simp only [not_exists, not_and, not_or] at hnever
  have hstill : ∀ j, i ≤ j → (P (ρ.point j) ∧ helps a (ρ.point j) ∧
      rank (ρ.point j) ≤ rank (ρ.point i)) := by
    intro j hj
    induction j, hj using Nat.le_induction with
    | base => exact ⟨hP, hhelps, le_rfl⟩
    | succ j hj ih =>
        obtain ⟨hP, hhelps, hrank⟩ := ih
        obtain ⟨hgoal, hcloser⟩ := hnever (j + 1) (by omega)
        rcases hstep _ _ _ hP hhelps (ρ.next j) with h | ⟨hP', hless | hsame⟩
        · exact absurd h hgoal
        · exact absurd (lt_of_lt_of_le hless hrank) (hcloser hP')
        · exact ⟨hP', hsame.2.2, hsame.1.trans hrank⟩
  obtain ⟨j, hj, hlabel⟩ := hfair i fun j hj =>
    henabled _ (hstill j hj).1 (hstill j hj).2.1
  obtain ⟨hP, hhelps, hrank⟩ := hstill j hj
  obtain ⟨hgoal, hcloser⟩ := hnever (j + 1) (by omega)
  rcases hstep _ _ _ hP hhelps (ρ.next j) with h | ⟨hP', hless | hsame⟩
  · exact hgoal h
  · exact hcloser hP' (lt_of_lt_of_le hless hrank)
  · exact hsame.2.1 hlabel

/-- If some set helps at every point before the goal, a run that is fair to all of
them reaches the goal. -/
theorem eventually (ρ : M.Endless) (hfair : ∀ a, ρ.Fair (A a))
    (hhelps : ∀ e, P e → goal e ∨ ∃ a, helps a e)
    (henabled : ∀ a e, P e → helps a e → M.Enabled (A a) e.state)
    (hstep : ∀ a e e' l, P e → helps a e → e.Next l e' → goal e' ∨
      P e' ∧ (rank e' < rank e ∨ rank e' ≤ rank e ∧ l ∉ A a ∧ helps a e'))
    {i : ℕ} (hP : P (ρ.point i)) : ∃ j, i ≤ j ∧ goal (ρ.point j) := by
  induction h : rank (ρ.point i) using Nat.strong_induction_on generalizing i with
  | _ r ih =>
      rcases hhelps _ hP with hgoal | ⟨a, ha⟩
      · exact ⟨i, le_rfl, hgoal⟩
      · obtain ⟨j, hj, hgoal | ⟨hP', hless⟩⟩ :=
          ρ.closer (hfair a) (henabled a) (hstep a) hP ha
        · exact ⟨j, hj, hgoal⟩
        · obtain ⟨k, hk, hgoal⟩ := ih _ (h ▸ hless) hP' rfl
          exact ⟨k, hj.trans hk, hgoal⟩

end Endless

end TransitionSystem
