import ReliableDelivery.Support.Interleaving

/-!
# Driving a transition system

A driver turns choices into steps.  Following a list of choices gives a run by
computation, so that concrete runs can be written down as schedules.
-/

namespace TransitionSystem

variable {σ ℓ χ : Type}

/-- The step a choice leads to, if it is possible. -/
structure Driver (M : TransitionSystem σ ℓ) (χ : Type) where
  advance : σ → χ → Option (ℓ × σ)
  sound : ∀ s choice l s', advance s choice = some (l, s') → M.step s l s'

namespace Driver

variable {M : TransitionSystem σ ℓ}

/-- The state after a schedule; impossible choices are skipped. -/
def follow (D : Driver M χ) (s : σ) : List χ → σ
  | [] => s
  | choice :: choices =>
      match D.advance s choice with
      | some (_, s') => D.follow s' choices
      | none => D.follow s choices

/-- The steps of a schedule, in order. -/
def trace (D : Driver M χ) (s : σ) : List χ → List (σ × ℓ)
  | [] => []
  | choice :: choices =>
      match D.advance s choice with
      | some (l, s') => (s, l) :: D.trace s' choices
      | none => D.trace s choices

theorem follow_append (D : Driver M χ) (s : σ) (choices choices' : List χ) :
    D.follow s (choices ++ choices') =
      D.follow (D.follow s choices) choices' := by
  induction choices generalizing s with
  | nil => rfl
  | cons choice choices ih =>
      simp only [List.cons_append, follow]
      split
      · exact ih _
      · exact ih s

theorem trace_append (D : Driver M χ) (s : σ) (choices choices' : List χ) :
    D.trace s (choices ++ choices') =
      D.trace s choices ++ D.trace (D.follow s choices) choices' := by
  induction choices generalizing s with
  | nil => rfl
  | cons choice choices ih =>
      simp only [List.cons_append, trace, follow]
      split
      · rw [ih, List.cons_append]
      · exact ih s

/-- A single choice is made in the state it starts from. -/
theorem state_of_mem_trace {D : Driver M χ} {s s' : σ} {choice : χ} {l : ℓ}
    (h : (s', l) ∈ D.trace s [choice]) : s' = s := by
  simp only [trace] at h
  split at h
  · rw [List.mem_singleton, Prod.mk.injEq] at h
    exact h.1
  · cases h

/-- Every step of a schedule is the step of one of its choices. -/
theorem advance_of_mem_trace {D : Driver M χ} {s s' : σ} {choices : List χ}
    {l : ℓ} (h : (s', l) ∈ D.trace s choices) :
    ∃ choice s'', D.advance s' choice = some (l, s'') := by
  induction choices generalizing s with
  | nil => cases h
  | cons choice choices ih =>
      simp only [trace] at h
      split at h
      · next l' s'' hadvance =>
          rcases List.mem_cons.mp h with heq | hmem
          · rw [Prod.mk.injEq] at heq
            obtain ⟨rfl, rfl⟩ := heq
            exact ⟨choice, s'', hadvance⟩
          · exact ih hmem
      · exact ih h

/-- The run along a schedule. -/
theorem exists_follow (D : Driver M χ) (choices : List χ) (e : M.Execution) :
    ∃ e' : M.Execution, e.Later e' ∧ e'.state = D.follow e.state choices ∧
      e'.history = (D.trace e.state choices).reverse ++ e.history := by
  induction choices generalizing e with
  | nil => exact ⟨e, Execution.Later.refl e, rfl, rfl⟩
  | cons choice choices ih =>
      simp only [follow, trace]
      split
      · next l s' hadvance =>
          have hstep : M.step e.state l s' := D.sound _ _ _ _ hadvance
          obtain ⟨e', hlater, hstate, hhistory⟩ := ih (e.extend hstep)
          refine ⟨e', (e.next_extend hstep).later.trans hlater, hstate, ?_⟩
          rw [hhistory, List.reverse_cons, List.append_assoc]
          rfl
      · exact ih e

end Driver

end TransitionSystem
