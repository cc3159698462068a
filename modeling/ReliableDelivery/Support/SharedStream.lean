import ReliableDelivery.Support.Interleaving

/-!
# Writers that share a stream

Any number of threads write values into one stream, each value as a block.  The
stream takes as much of a block at a time as it likes, or fails; a mutex is held
over a whole block.  What has come into the stream is then a row of blocks, in the
order in which the mutex was taken: whole ones, pieces of those that failed, and at
the end the part that has been written of the block in hand.
-/

/-- The calls that have not returned, by thread, with the value to write.  The
holder of the mutex comes with its value and the length of what it has written. -/
structure SharedStream (τ α β : Type) where
  calls : τ → Option α := fun _ => none
  holder : Option (τ × α × ℕ) := none
  stream : List β := []

namespace SharedStream

open TransitionSystem

variable {τ α β : Type}

/-- The steps.  A call returns with `refuse`, `finish` and `fail`; `write` puts `n`
elements into the stream behind the first `k` of the block. -/
inductive Label (τ α : Type) where
  | call (t : τ) (a : α)
  | refuse (t : τ) (a : α)
  | lock (t : τ) (a : α)
  | write (t : τ) (a : α) (k n : ℕ)
  | finish (t : τ) (a : α)
  | fail (t : τ) (a : α) (k : ℕ)
  deriving DecidableEq

def setCall [DecidableEq τ] (s : SharedStream τ α β) (t : τ) (call : Option α) :
    SharedStream τ α β :=
  { s with calls := Function.update s.calls t call }

/-- The step under a label, if it is possible.  A value without a block is
refused before the mutex. -/
def step [DecidableEq τ] [DecidableEq α] (block : α → List β)
    (s : SharedStream τ α β) : Label τ α → Option (SharedStream τ α β)
  | .call t a => if s.calls t = none then some (s.setCall t (some a)) else none
  | .refuse t a =>
      if s.calls t = some a ∧ (block a).length = 0 then some (s.setCall t none)
      else none
  | .lock t a =>
      if s.calls t = some a ∧ (block a).length ≠ 0 ∧ s.holder = none then
        some { s with holder := some (t, a, 0) }
      else none
  | .write t a k n =>
      if s.holder = some (t, a, k) ∧ k < (block a).length ∧ 0 < n ∧
          k + n ≤ (block a).length then
        some { s with
          holder := some (t, a, k + n)
          stream := s.stream ++ ((block a).drop k).take n }
      else none
  | .finish t a =>
      if s.holder = some (t, a, (block a).length) then
        some { s.setCall t none with holder := none }
      else none
  | .fail t a k =>
      if s.holder = some (t, a, k) ∧ k < (block a).length then
        some { s.setCall t none with holder := none }
      else none

/-- All runs of a stream with its writers. -/
def system (τ : Type) [DecidableEq τ] [DecidableEq α] (block : α → List β) :
    TransitionSystem (SharedStream τ α β) (Label τ α) where
  init s := s = {}
  step s l s' := s.step block l = some s'

namespace Label

variable (block : α → List β)

/-- The value whose block a write completes. -/
def completed : Label τ α → Option α
  | write _ a k n => if k + n = (block a).length then some a else none
  | _ => none

/-- The value of a call that returns with success. -/
def finished : Label τ α → Option α
  | finish _ a => some a
  | _ => none

/-- The value of which something comes into the stream. -/
def written : Label τ α → Option α
  | write _ a _ _ => some a
  | _ => none

/-- What the stream has of a block that will not grow any more. -/
def closed : Label τ α → List β
  | write _ a k n => if k + n = (block a).length then block a else []
  | fail _ a k => (block a).take k
  | _ => []

/-- A write fails inside a block. -/
def tears : Label τ α → Bool
  | fail _ _ k => 0 < k
  | _ => false

/-- Something comes into the stream. -/
def writes (l : Label τ α) : Bool :=
  l.written.isSome

end Label

variable (block : α → List β)

/-- What is in the stream of the block in hand, until the block is whole. -/
def unfinished (s : SharedStream τ α β) : List β :=
  match s.holder with
  | none => []
  | some (_, a, k) => if k < (block a).length then (block a).take k else []

/-- The value in hand, when its block is whole. -/
def whole (s : SharedStream τ α β) : Option α :=
  match s.holder with
  | none => none
  | some (_, a, k) => if k = (block a).length then some a else none

variable {block} [DecidableEq τ] [DecidableEq α] {s s' : SharedStream τ α β}

/-- The stream goes on with what is closed, and with what is unfinished after it. -/
theorem stream_step {l : Label τ α} (h : s.step block l = some s')
    {before : List β} (hbefore : s.stream = before ++ s.unfinished block) :
    s'.stream = before ++ l.closed block ++ s'.unfinished block := by
  cases l with
  | call t a =>
      simp only [step, Option.ite_none_right_eq_some, Option.some.injEq] at h
      obtain ⟨-, rfl⟩ := h
      simp only [Label.closed, List.append_nil]
      exact hbefore
  | refuse t a =>
      simp only [step, Option.ite_none_right_eq_some, Option.some.injEq] at h
      obtain ⟨-, rfl⟩ := h
      simp only [Label.closed, List.append_nil]
      exact hbefore
  | lock t a =>
      simp only [step, Option.ite_none_right_eq_some, Option.some.injEq] at h
      obtain ⟨⟨-, -, hfree⟩, rfl⟩ := h
      simp only [unfinished, hfree] at hbefore
      simp only [unfinished, Label.closed, List.take_zero, ite_self]
      simpa using hbefore
  | write t a k n =>
      simp only [step, Option.ite_none_right_eq_some, Option.some.injEq] at h
      obtain ⟨⟨hholder, hk, -, hn⟩, rfl⟩ := h
      simp only [unfinished, hholder, if_pos hk] at hbefore
      have hmore : s.stream ++ ((block a).drop k).take n =
          before ++ (block a).take (k + n) := by
        rw [hbefore, List.append_assoc, List.take_add]
      simp only [unfinished, Label.closed, hmore]
      by_cases hwhole : k + n = (block a).length
      · rw [if_pos hwhole, if_neg (by omega), hwhole, List.take_length,
          List.append_nil]
      · rw [if_neg hwhole, if_pos (by omega), List.append_nil]
  | finish t a =>
      simp only [step, Option.ite_none_right_eq_some, Option.some.injEq] at h
      obtain ⟨hholder, rfl⟩ := h
      simp only [unfinished, hholder, lt_irrefl, if_false] at hbefore
      simpa [unfinished, Label.closed, setCall] using hbefore
  | fail t a k =>
      simp only [step, Option.ite_none_right_eq_some, Option.some.injEq] at h
      obtain ⟨⟨hholder, hk⟩, rfl⟩ := h
      simp only [unfinished, hholder, if_pos hk] at hbefore
      simpa [unfinished, Label.closed, setCall] using hbefore

/-- A block becomes whole under the mutex, and its call returns before the next one
gets the mutex. -/
theorem whole_step {l : Label τ α} (h : s.step block l = some s') :
    (s.whole block).toList ++ (l.completed block).toList =
      l.finished.toList ++ (s'.whole block).toList := by
  cases l with
  | call t a =>
      simp only [step, Option.ite_none_right_eq_some, Option.some.injEq] at h
      obtain ⟨-, rfl⟩ := h
      simp [whole, Label.completed, Label.finished, setCall]
  | refuse t a =>
      simp only [step, Option.ite_none_right_eq_some, Option.some.injEq] at h
      obtain ⟨-, rfl⟩ := h
      simp [whole, Label.completed, Label.finished, setCall]
  | lock t a =>
      simp only [step, Option.ite_none_right_eq_some, Option.some.injEq] at h
      obtain ⟨⟨-, hpos, hfree⟩, rfl⟩ := h
      simp [whole, Label.completed, Label.finished, hfree, Ne.symm hpos]
  | write t a k n =>
      simp only [step, Option.ite_none_right_eq_some, Option.some.injEq] at h
      obtain ⟨⟨hholder, hk, -, -⟩, rfl⟩ := h
      simp [whole, Label.completed, Label.finished, hholder, hk.ne]
  | finish t a =>
      simp only [step, Option.ite_none_right_eq_some, Option.some.injEq] at h
      obtain ⟨hholder, rfl⟩ := h
      simp [whole, Label.completed, Label.finished, hholder]
  | fail t a k =>
      simp only [step, Option.ite_none_right_eq_some, Option.some.injEq] at h
      obtain ⟨⟨hholder, hk⟩, rfl⟩ := h
      simp [whole, Label.completed, Label.finished, hholder, hk.ne]

/-- Whatever the threads do, the stream is a row of blocks and pieces of blocks. -/
theorem stream_eq (e : (system τ block).Execution) :
    e.state.stream =
      (e.history.reverse.map fun x => x.2.closed block).flatten ++
        e.state.unfinished block := by
  apply Execution.induct (P := fun e : (system τ block).Execution =>
    (Execution.state e).stream =
      ((Execution.history e).reverse.map fun x => x.2.closed block).flatten ++
        (Execution.state e).unfinished block)
  · intro e hnil hinit
    rw [show e.state = {} from hinit, hnil]
    rfl
  · intro e e' l ih hnext
    rw [stream_step hnext.1 ih, hnext.2]
    simp

omit [DecidableEq τ] [DecidableEq α] in
/-- Without failures inside of blocks, the blocks that are closed are whole. -/
theorem closed_eq_completed {past : List (SharedStream τ α β × Label τ α)}
    (huntorn : ∀ x ∈ past, x.2.tears = false) :
    (past.map fun x => x.2.closed block).flatten =
      ((past.filterMap fun x => x.2.completed block).map block).flatten := by
  induction past with
  | nil => rfl
  | cons x past ih =>
      have hx := huntorn x List.mem_cons_self
      have hpast := ih fun y hy => huntorn y (List.mem_cons_of_mem _ hy)
      rw [List.map_cons, List.flatten_cons, List.filterMap_cons, hpast]
      cases hl : x.2 with
      | write t a k n =>
          simp only [Label.closed, Label.completed]
          split
          · simp
          · simp
      | fail t a k =>
          have hzero : k = 0 := by
            simpa [hl, Label.tears] using hx
          simp [Label.closed, Label.completed, hzero]
      | _ => simp [Label.closed, Label.completed]

/-- While no write has failed inside a block, the stream has whole blocks and the
beginning of one more. -/
theorem stream_eq_of_untorn (e : (system τ block).Execution)
    (huntorn : ∀ x ∈ e.history, x.2.tears = false) :
    e.state.stream = ((e.log (Label.completed block)).map block).flatten ++
      e.state.unfinished block := by
  rw [stream_eq, Execution.log, ← List.filterMap_reverse,
    closed_eq_completed fun x hx => huntorn x (List.mem_reverse.mp hx)]

/-- The calls that return with success are those whose blocks are whole, in the
same order; the last of them may still have to return. -/
theorem completed_eq (e : (system τ block).Execution) :
    e.log (Label.completed block) =
      e.log Label.finished ++ (e.state.whole block).toList := by
  apply Execution.induct (P := fun e : (system τ block).Execution =>
    Execution.log (Label.completed block) e =
      Execution.log Label.finished e ++
        ((Execution.state e).whole block).toList)
  · intro e hnil hinit
    rw [Execution.log_init hnil, Execution.log_init hnil,
      show e.state = {} from hinit]
    rfl
  · intro e e' l ih hnext
    have hstep : e.state.step block l = some e'.state := hnext.1
    rw [Execution.log_next hnext, Execution.log_next hnext, ih,
      List.append_assoc, List.append_assoc, whole_step hstep]

theorem stream_of_not_writes {l : Label τ α} (h : s.step block l = some s')
    (hl : l.writes = false) : s'.stream = s.stream := by
  cases l with
  | write t a k n => cases hl
  | _ =>
      simp only [step, Option.ite_none_right_eq_some, Option.some.injEq] at h
      obtain ⟨-, rfl⟩ := h
      rfl

theorem stream_prefix {l : Label τ α} (h : s.step block l = some s') :
    s.stream <+: s'.stream := by
  cases l with
  | write t a k n =>
      simp only [step, Option.ite_none_right_eq_some, Option.some.injEq] at h
      obtain ⟨-, rfl⟩ := h
      exact List.prefix_append _ _
  | _ => rw [stream_of_not_writes h rfl]

omit [DecidableEq τ] [DecidableEq α] in
theorem completed_of_not_writes {l : Label τ α} (hl : l.writes = false) :
    l.completed block = none := by
  cases l with
  | write t a k n => cases hl
  | _ => rfl

omit [DecidableEq τ] [DecidableEq α] in
theorem not_writes_of_tears {l : Label τ α} (hl : l.tears = true) :
    l.writes = false := by
  cases l with
  | fail t a k => rfl
  | _ => cases hl

/-- Whole blocks are blocks of which something was written. -/
theorem written_of_completed {l : Label τ α} {a : α} (h : s.step block l = some s')
    (hl : l.completed block = some a) : l.written = some a ∧ block a ≠ [] := by
  cases l with
  | write t b k n =>
      simp only [step, Option.ite_none_right_eq_some, Option.some.injEq] at h
      obtain ⟨⟨-, hk, -, -⟩, -⟩ := h
      simp only [Label.completed, Option.ite_none_right_eq_some,
        Option.some.injEq] at hl
      obtain ⟨-, rfl⟩ := hl
      exact ⟨rfl, List.ne_nil_of_length_pos (by omega)⟩
  | _ => cases hl

theorem written_of_mem_completed {e : (system τ block).Execution} {a : α}
    (ha : a ∈ e.log (Label.completed block)) :
    a ∈ e.log Label.written ∧ block a ≠ [] := by
  obtain ⟨⟨s, l⟩, hx, hl⟩ := Execution.mem_log.mp ha
  obtain ⟨e₁, e₂, -, hnext, -⟩ := Execution.exists_next_of_mem hx
  obtain ⟨hwritten, hne⟩ := written_of_completed hnext.1 hl
  exact ⟨Execution.mem_log.mpr ⟨_, hx, hwritten⟩, hne⟩

/-- The holder of the mutex, if it has written something, has written it. -/
theorem written_of_holder (e : (system τ block).Execution) {t : τ} {a : α} {k : ℕ}
    (h : e.state.holder = some (t, a, k)) (hk : 0 < k) :
    a ∈ e.log Label.written := by
  revert t a k
  apply Execution.induct (P := fun e : (system τ block).Execution => ∀ {t a k},
    (Execution.state e).holder = some (t, a, k) → 0 < k →
      a ∈ Execution.log Label.written e)
  · intro e _ hinit t a k h _
    rw [show e.state = {} from hinit] at h
    cases h
  · intro e e' l ih hnext t a k h hk
    have hstep : e.state.step block l = some e'.state := hnext.1
    rw [Execution.log_next hnext]
    cases l with
    | write t' b k' n =>
        simp only [step, Option.ite_none_right_eq_some, Option.some.injEq] at hstep
        rw [← hstep.2] at h
        simp only [Option.some.injEq, Prod.mk.injEq] at h
        simp [Label.written, h.2.1]
    | lock t' b =>
        simp only [step, Option.ite_none_right_eq_some, Option.some.injEq] at hstep
        rw [← hstep.2] at h
        simp only [Option.some.injEq, Prod.mk.injEq] at h
        omega
    | finish t' b =>
        simp only [step, Option.ite_none_right_eq_some, Option.some.injEq] at hstep
        rw [← hstep.2] at h
        cases h
    | fail t' b k' =>
        simp only [step, Option.ite_none_right_eq_some, Option.some.injEq] at hstep
        rw [← hstep.2] at h
        cases h
    | _ =>
        simp only [step, Option.ite_none_right_eq_some, Option.some.injEq] at hstep
        rw [← hstep.2] at h
        exact List.mem_append_left _ (ih h hk)

/-- The beginning of a block, of which something was written if there is any. -/
def Piece (e : (system τ block).Execution) (rest : List β) : Prop :=
  rest = [] ∨ ∃ a ∈ e.log Label.written, ∃ k, k < (block a).length ∧
    rest = (block a).take k

theorem piece_unfinished (e : (system τ block).Execution) :
    Piece e (e.state.unfinished block) := by
  simp only [unfinished]
  split
  · exact .inl rfl
  · next t a k hholder =>
      split
      · next hk =>
          rcases Nat.eq_zero_or_pos k with rfl | hpos
          · exact .inl rfl
          · exact .inr ⟨a, written_of_holder e hholder hpos, k, hk, rfl⟩
      · exact .inl rfl

/-- The stream takes nothing more once a write has failed inside a block. -/
def Dies (e : (system τ block).Execution) : Prop :=
  e.history.Pairwise fun x before => x.2.writes = true → before.2.tears = false

theorem Dies.before {e e' : (system τ block).Execution} (h : Dies e')
    (hlater : Execution.Later e e') : Dies e :=
  List.Pairwise.sublist hlater.history_suffix.sublist h

/-- A stream that dies has whole blocks and the beginning of one more. -/
theorem stream_eq_of_dies (e : (system τ block).Execution) (hdies : Dies e) :
    ∃ rest, Piece e rest ∧ e.state.stream =
      ((e.log (Label.completed block)).map block).flatten ++ rest := by
  have hcases : (∀ x ∈ e.history, x.2.tears = false) ∨
      (∃ x ∈ e.history, x.2.tears = true) ∧ ∃ rest, Piece e rest ∧
        e.state.stream =
          ((e.log (Label.completed block)).map block).flatten ++ rest := by
    revert hdies
    apply Execution.induct (P := fun e : (system τ block).Execution => Dies e →
      (∀ x ∈ e.history, x.2.tears = false) ∨
      (∃ x ∈ e.history, x.2.tears = true) ∧ ∃ rest, Piece e rest ∧
        (Execution.state e).stream =
          ((e.log (Label.completed block)).map block).flatten ++ rest)
    · intro e hnil _ _
      left
      rw [hnil]
      exact List.forall_mem_nil _
    · intro e e' l ih hnext hdies
      have hstep : e.state.step block l = some e'.state := hnext.1
      have hquiet : l.writes = false → ∀ rest, Piece e rest →
          e.state.stream =
            ((e.log (Label.completed block)).map block).flatten ++ rest →
          ∃ rest, Piece e' rest ∧ e'.state.stream =
            ((e'.log (Label.completed block)).map block).flatten ++ rest := by
        intro hwrites rest hpiece hstream
        have hnone : l.written = none := by simpa [Label.writes] using hwrites
        have hwritten : e'.log Label.written = e.log Label.written := by
          rw [Execution.log_next hnext, hnone, Option.toList_none, List.append_nil]
        refine ⟨rest, ?_, ?_⟩
        · rw [Piece, hwritten]
          exact hpiece
        · rw [stream_of_not_writes hstep hwrites, Execution.log_next hnext,
            completed_of_not_writes hwrites, Option.toList_none, List.append_nil,
            hstream]
      rcases ih (hdies.before hnext.later) with
        huntorn | ⟨⟨x, hx, htorn⟩, rest, hpiece, hstream⟩
      · by_cases hl : l.tears = true
        · exact .inr ⟨⟨(e.state, l), hnext.2 ▸ List.mem_cons_self, hl⟩,
            hquiet (not_writes_of_tears hl) _ (piece_unfinished e)
              (stream_eq_of_untorn e huntorn)⟩
        · left
          rw [hnext.2]
          exact List.forall_mem_cons.mpr ⟨by simpa using hl, huntorn⟩
      · have hwrites : l.writes = false := by
          by_contra hl
          rw [Dies, hnext.2, List.pairwise_cons] at hdies
          have hx' := hdies.1 x hx (by simpa using hl)
          rw [htorn] at hx'
          cases hx'
        exact .inr ⟨⟨x, hnext.2 ▸ List.mem_cons_of_mem _ hx, htorn⟩,
          hquiet hwrites rest hpiece hstream⟩
  rcases hcases with huntorn | ⟨-, rest, hpiece, hstream⟩
  · exact ⟨_, piece_unfinished e, stream_eq_of_untorn e huntorn⟩
  · exact ⟨rest, hpiece, hstream⟩

end SharedStream
