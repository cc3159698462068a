import ReliableDelivery.Support.Program

/-!
# Transition systems, executions and thread pools

An execution is a state together with the steps that led to it, most recent
first, each paired with the state in which it was taken.  A statement about
every run is a statement about every execution, and "earlier in the run" is
membership in the history.

A thread pool describes a system some of whose threads run programs.  Its rule,
`ThreadPool.safe`, carries the safety of each job's code from the moment the
job begins to every later state of every interleaving.
-/

/-- A labelled transition system. -/
structure TransitionSystem (σ ℓ : Type) where
  init : σ → Prop
  step : σ → ℓ → σ → Prop

namespace TransitionSystem

variable {σ ℓ : Type}

/-- A run leaves a history of the steps taken, most recent first. -/
inductive Run (M : TransitionSystem σ ℓ) : List (σ × ℓ) → σ → Prop where
  | init {s : σ} (h : M.init s) : Run M [] s
  | step {past : List (σ × ℓ)} {s s' : σ} {l : ℓ}
      (hrun : Run M past s) (hstep : M.step s l s') :
      Run M ((s, l) :: past) s'

/-- A state with the run that led to it. -/
structure Execution (M : TransitionSystem σ ℓ) where
  history : List (σ × ℓ)
  state : σ
  run : M.Run history state

namespace Execution

variable {M : TransitionSystem σ ℓ}

/-- One further step. -/
def Next (e : M.Execution) (l : ℓ) (e' : M.Execution) : Prop :=
  M.step e.state l e'.state ∧ e'.history = (e.state, l) :: e.history

/-- Any number of further steps. -/
def Later : M.Execution → M.Execution → Prop :=
  Relation.ReflTransGen fun e e' => ∃ l, e.Next l e'

theorem Later.refl (e : M.Execution) : e.Later e :=
  Relation.ReflTransGen.refl

theorem Later.trans {e₁ e₂ e₃ : M.Execution}
    (h₁ : e₁.Later e₂) (h₂ : e₂.Later e₃) : e₁.Later e₃ :=
  Relation.ReflTransGen.trans h₁ h₂

theorem Next.later {e e' : M.Execution} {l : ℓ} (h : e.Next l e') :
    e.Later e' :=
  Relation.ReflTransGen.single ⟨l, h⟩

/-- Extend an execution by a step of the system. -/
def extend (e : M.Execution) {l : ℓ} {s : σ} (h : M.step e.state l s) :
    M.Execution where
  history := (e.state, l) :: e.history
  state := s
  run := .step e.run h

theorem next_extend (e : M.Execution) {l : ℓ} {s : σ}
    (h : M.step e.state l s) : e.Next l (e.extend h) :=
  ⟨h, rfl⟩

/-- Induction over executions: what holds initially and is preserved by every
step holds of every execution. -/
theorem induct {P : M.Execution → Prop}
    (hinit : ∀ e : M.Execution, e.history = [] → M.init e.state → P e)
    (hnext : ∀ (e e' : M.Execution) (l : ℓ), P e → e.Next l e' → P e')
    (e : M.Execution) : P e := by
  obtain ⟨history, state, run⟩ := e
  induction run with
  | init h => exact hinit ⟨[], _, .init h⟩ rfl h
  | step hrun hstep ih =>
      exact hnext ⟨_, _, hrun⟩ ⟨_, _, .step hrun hstep⟩ _ ih ⟨hstep, rfl⟩

/-- An execution has at most one predecessor. -/
theorem Next.eq_of_next {e₁ e₂ e : M.Execution} {l₁ l₂ : ℓ} (h₁ : e₁.Next l₁ e)
    (h₂ : e₂.Next l₂ e) : e₁ = e₂ := by
  have hhistory := h₁.2.symm.trans h₂.2
  rw [List.cons.injEq, Prod.mk.injEq] at hhistory
  cases e₁
  cases e₂
  simp_all

/-- A point of a run is its end or comes before the last step. -/
theorem Later.eq_or_before {e₁ e e' : M.Execution} {l : ℓ} (h : e₁.Later e')
    (hnext : e.Next l e') : e₁ = e' ∨ e₁.Later e := by
  rcases Relation.ReflTransGen.cases_tail h with heq | ⟨e₂, hbefore, l', hlast⟩
  · exact .inl heq.symm
  · rw [hnext.eq_of_next hlast]
    exact .inr hbefore

/-- Strong induction over executions: the hypothesis is about every earlier
point of the run. -/
theorem induct_before {P : M.Execution → Prop}
    (hinit : ∀ e : M.Execution, e.history = [] → M.init e.state → P e)
    (hnext : ∀ (e e' : M.Execution) (l : ℓ), (∀ e₁, e₁.Later e → P e₁) →
      e.Next l e' → P e')
    (e : M.Execution) : P e := by
  have hall : ∀ e₁ : M.Execution, e₁.Later e → P e₁ := by
    apply induct (P := fun e => ∀ e₁ : M.Execution, e₁.Later e → P e₁)
    · intro e hnil hs e₁ hlater
      rcases Relation.ReflTransGen.cases_tail hlater with rfl | ⟨e₂, -, l, hlast⟩
      · exact hinit _ hnil hs
      · rw [hlast.2] at hnil
        cases hnil
    · intro e e' l ih hstep e₁ hlater
      rcases hlater.eq_or_before hstep with rfl | hbefore
      · exact hnext e e₁ l ih hstep
      · exact ih e₁ hbefore
  exact hall e (.refl e)

/-- What every step preserves holds in every later execution. -/
theorem Later.preserves {P : M.Execution → Prop} {e e' : M.Execution}
    (h : e.Later e') (hP : P e)
    (hnext : ∀ (e e' : M.Execution) (l : ℓ), P e → e.Next l e' → P e') :
    P e' := by
  induction h with
  | refl => exact hP
  | tail _ hlast ih =>
      obtain ⟨l, hl⟩ := hlast
      exact hnext _ _ l ih hl

theorem Later.history_suffix {e e' : M.Execution} (h : e.Later e') :
    e.history <:+ e'.history := by
  apply h.preserves (List.suffix_refl _)
  intro e₁ e₂ l hsuffix hnext
  rw [hnext.2]
  exact hsuffix.trans (List.suffix_cons _ _)

theorem Later.mem_history {e e' : M.Execution} (h : e.Later e') {x : σ × ℓ}
    (hx : x ∈ e.history) : x ∈ e'.history :=
  h.history_suffix.mem hx

theorem Next.mem_history {e e' : M.Execution} {l : ℓ} (h : e.Next l e') :
    (e.state, l) ∈ e'.history := by
  rw [h.2]
  exact List.mem_cons_self

/-- Of two points of one run, one is later. -/
theorem Later.total {e₁ e₂ e : M.Execution} (h₁ : e₁.Later e)
    (h₂ : e₂.Later e) : e₁.Later e₂ ∨ e₂.Later e₁ := by
  have hunique : Relator.RightUnique
      (Function.swap fun e e' : M.Execution => ∃ l, e.Next l e') := by
    rintro e a b ⟨l₁, ha⟩ ⟨l₂, hb⟩
    exact ha.eq_of_next hb
  rcases Relation.ReflTransGen.total_of_right_unique hunique
    (Relation.reflTransGen_swap.mpr h₁) (Relation.reflTransGen_swap.mpr h₂) with
    h | h
  · exact .inr (Relation.reflTransGen_swap.mp h)
  · exact .inl (Relation.reflTransGen_swap.mp h)

/-- What comes to hold in a run does so at one of its steps. -/
theorem Later.exists_turn {P : M.Execution → Prop} {e e' : M.Execution}
    (h : e.Later e') (hbefore : ¬P e) (hafter : P e') :
    ∃ (e₁ e₂ : M.Execution) (l : ℓ), e.Later e₁ ∧ e₁.Next l e₂ ∧
      e₂.Later e' ∧ ¬P e₁ ∧ P e₂ := by
  induction h with
  | refl => exact absurd hafter hbefore
  | @tail e₁ e₂ hpast hlast ih =>
      by_cases hearlier : P e₁
      · obtain ⟨e₃, e₄, l, hlater, hnext, hrest, hturn⟩ := ih hearlier
        obtain ⟨l', hl'⟩ := hlast
        exact ⟨e₃, e₄, l, hlater, hnext, hrest.trans hl'.later, hturn⟩
      · obtain ⟨l, hl⟩ := hlast
        exact ⟨e₁, e₂, l, hpast, hl, Later.refl e₂, hearlier, hafter⟩

/-- Every step in the history was taken at an earlier point of the same run. -/
theorem exists_next_of_mem {e : M.Execution} {s : σ} {l : ℓ}
    (h : (s, l) ∈ e.history) :
    ∃ e₁ e₂ : M.Execution, e₁.state = s ∧ e₁.Next l e₂ ∧ e₂.Later e := by
  revert h
  apply induct (P := fun e => (s, l) ∈ e.history →
    ∃ e₁ e₂ : M.Execution, e₁.state = s ∧ e₁.Next l e₂ ∧ e₂.Later e)
  · intro e hnil _ hmem
    rw [hnil] at hmem
    simp at hmem
  · intro e e' l' ih hnext hmem
    rw [hnext.2, List.mem_cons] at hmem
    rcases hmem with heq | hmem
    · obtain ⟨rfl, rfl⟩ := Prod.mk.injEq .. ▸ heq
      exact ⟨e, e', rfl, hnext, Later.refl e'⟩
    · obtain ⟨e₁, e₂, hs, hn, hlater⟩ := ih hmem
      exact ⟨e₁, e₂, hs, hn, hlater.trans hnext.later⟩

/-- What the labels of a run tell, in the order in which it happened. -/
def log {α : Type} (f : ℓ → Option α) (e : M.Execution) : List α :=
  (e.history.filterMap fun x => f x.2).reverse

section Log

variable {α : Type} {f : ℓ → Option α}

theorem log_init {e : M.Execution} (h : e.history = []) : e.log f = [] := by
  simp [log, h]

theorem log_next {e e' : M.Execution} {l : ℓ} (h : e.Next l e') :
    e'.log f = e.log f ++ (f l).toList := by
  cases hl : f l with
  | none => simp [log, h.2, hl]
  | some a => simp [log, h.2, hl]

/-- What is told in the same words more rarely. -/
theorem log_sublist {e : M.Execution} {g : ℓ → Option α}
    (h : ∀ l a, g l = some a → f l = some a) :
    (e.log g).Sublist (e.log f) := by
  rw [log, log, List.reverse_sublist]
  induction e.history with
  | nil => exact List.Sublist.slnil
  | cons x past ih =>
      cases hg : g x.2 with
      | none =>
          simp only [List.filterMap_cons, hg]
          split
          · exact ih
          · exact ih.cons _
      | some a =>
          simp only [List.filterMap_cons, hg, h _ _ hg]
          exact ih.cons_cons a

/-- What is never told again is told once. -/
theorem nodup_log (h : ∀ (e e' : M.Execution) l a, e.Next l e' → f l = some a →
    a ∉ e.log f) (e : M.Execution) : (e.log f).Nodup := by
  apply Execution.induct (P := fun e : M.Execution => (e.log f).Nodup)
  · intro e hnil _
    rw [log_init hnil]
    exact List.nodup_nil
  · intro e e' l ih hnext
    rw [log_next hnext]
    cases hl : f l with
    | none => rwa [Option.toList_none, List.append_nil]
    | some a =>
        rw [Option.toList_some, ← List.concat_eq_append]
        exact ih.concat (h e e' l a hnext hl)

/-- Nothing that was told is taken back. -/
theorem Later.log_extends {e e' : M.Execution} (h : e.Later e')
    (f : ℓ → Option α) : e.log f <+: e'.log f :=
  List.reverse_prefix.mpr (h.history_suffix.filterMap _)

theorem mem_log {e : M.Execution} {a : α} :
    a ∈ e.log f ↔ ∃ x ∈ e.history, f x.2 = some a := by
  simp [log]

end Log

end Execution

/-- A pool of threads running programs inside a transition system. -/
structure ThreadPool (M : TransitionSystem σ ℓ)
    (T J C : Type) (R : C → Type) where
  /-- The job a thread is running, with the rest of its program. -/
  running : σ → T → Option (J × Program C R Unit)
  /-- The program a job begins with. -/
  code : J → Program C R Unit
  /-- The command issued under a label with its reply, and by which job. -/
  action : ℓ → Option (J × Σ c : C, R c)
  /-- The label under which a job begins. -/
  begins : ℓ → J → Prop
  initIdle : ∀ s, M.init s → ∀ t, running s t = none
  stepCases : ∀ s l s' t j p, M.step s l s' → running s' t = some (j, p) →
    (running s t = some (j, p) ∧ ∀ a, action l = some (j, a) →
      ∃ t' p', t' ≠ t ∧ running s t' = some (j, p')) ∨
    (begins l j ∧ p = code j) ∨
      ∃ c next r, running s t = some (j, .call c next) ∧
        action l = some (j, ⟨c, r⟩) ∧ p = next r
  /-- No two threads ever run the same job. -/
  distinct : ∀ (e : M.Execution) t t' j p p',
    running e.state t = some (j, p) → running e.state t' = some (j, p') →
      t = t'

namespace ThreadPool

variable {M : TransitionSystem σ ℓ} {T J C : Type} {R : C → Type}

/-- Under this label the job issues a command and gets its reply. -/
def performs (pool : ThreadPool M T J C R) (l : ℓ) (j : J) (c : C) (r : R c) :
    Prop :=
  pool.action l = some (j, ⟨c, r⟩)

/-- Any number of steps, none of which the job takes. -/
def Without (pool : ThreadPool M T J C R) (j : J) :
    M.Execution → M.Execution → Prop :=
  Relation.ReflTransGen fun e e' =>
    ∃ l, e.Next l e' ∧ ∀ c r, ¬pool.performs l j c r

theorem Without.refl (pool : ThreadPool M T J C R) (j : J) (e : M.Execution) :
    pool.Without j e e :=
  Relation.ReflTransGen.refl

theorem Without.trans {pool : ThreadPool M T J C R} {j : J}
    {e₁ e₂ e₃ : M.Execution} (h₁ : pool.Without j e₁ e₂)
    (h₂ : pool.Without j e₂ e₃) : pool.Without j e₁ e₃ :=
  Relation.ReflTransGen.trans h₁ h₂

theorem Without.later {pool : ThreadPool M T J C R} {j : J}
    {e e' : M.Execution} (h : pool.Without j e e') : e.Later e' := by
  induction h with
  | refl => exact Execution.Later.refl e
  | tail _ hlast ih =>
      obtain ⟨l, hnext, -⟩ := hlast
      exact ih.trans hnext.later

/-- What every step of the others preserves. -/
theorem Without.preserves {pool : ThreadPool M T J C R} {j : J}
    {P : M.Execution → Prop} {e e' : M.Execution}
    (h : pool.Without j e e') (hP : P e)
    (hnext : ∀ (e e' : M.Execution) (l : ℓ), P e → e.Next l e' →
      (∀ c r, ¬pool.performs l j c r) → P e') : P e' := by
  induction h with
  | refl => exact hP
  | tail _ hlast ih =>
      obtain ⟨l, hl, hother⟩ := hlast
      exact hnext _ _ l ih hl hother

/-- The contract of one job: its surroundings are the other jobs. -/
def contract (pool : ThreadPool M T J C R) (j : J)
    (pre : M.Execution → C → Prop) : Program.Contract M.Execution C R where
  rely := pool.Without j
  relyRefl := Without.refl pool j
  relyTrans := Without.trans
  pre := pre
  act e c r e' := ∃ l, e.Next l e' ∧ pool.performs l j c r
  grows := Execution.Later
  growsTrans := Execution.Later.trans
  relyGrows := Without.later
  actGrows := by
    rintro e c r e' ⟨l, hnext, -⟩
    exact hnext.later

/-- If the code of every job is safe wherever it may begin, then the rest of
every running program is safe in every execution. -/
theorem safe (pool : ThreadPool M T J C R) {pre : J → M.Execution → C → Prop}
    (hcode : ∀ (e : M.Execution) j,
      Program.Safe (pool.contract j (pre j)) (fun _ _ => True) (pool.code j) e)
    (e : M.Execution) (t : T) (j : J) (p : Program C R Unit)
    (hrunning : pool.running e.state t = some (j, p)) :
    Program.Safe (pool.contract j (pre j)) (fun _ _ => True) p e := by
  revert t j p
  apply Execution.induct (P := fun e => ∀ t j p,
    pool.running e.state t = some (j, p) →
      Program.Safe (pool.contract j (pre j)) (fun _ _ => True) p e)
  · intro e _ hinit t j p hrunning
    rw [pool.initIdle e.state hinit t] at hrunning
    cases hrunning
  · intro e e' l ih hnext t j p hrunning
    rcases pool.stepCases _ _ _ t j p hnext.1 hrunning with
      ⟨hsame, hother⟩ | ⟨-, rfl⟩ | ⟨c, next, r, hbefore, hperforms, rfl⟩
    · apply (ih t j p hsame).rely
      refine Relation.ReflTransGen.single ⟨l, hnext, ?_⟩
      intro c r hperforms
      obtain ⟨t', p', hne, hrunning'⟩ := hother _ hperforms
      exact hne (pool.distinct e t' t j p' p hrunning' hsame)
    · exact hcode e' j
    · have hcall := ih t j _ hbefore e (Without.refl pool j e)
      exact hcall.2 r e' ⟨l, hnext, hperforms⟩

/-- Whenever a job issues a command, its precondition holds. -/
theorem pre_of_performs (pool : ThreadPool M T J C R)
    {pre : J → M.Execution → C → Prop}
    (hcode : ∀ (e : M.Execution) j,
      Program.Safe (pool.contract j (pre j)) (fun _ _ => True) (pool.code j) e)
    {e : M.Execution} {t : T} {j : J} {c : C}
    {next : R c → Program C R Unit}
    (hrunning : pool.running e.state t = some (j, .call c next)) :
    pre j e c :=
  (pool.safe hcode e t j _ hrunning e (Without.refl pool j e)).1

/-- What holds of a job's code, and of the rest of a program after any reply the
job has had so far, holds of what the job is running. -/
theorem running_induct (pool : ThreadPool M T J C R) {j : J}
    {Q : Program C R Unit → Prop} {allowed : (c : C) → R c → Prop}
    (hcode : Q (pool.code j))
    (hcall : ∀ c next r, allowed c r → Q (.call c next) → Q (next r))
    (e : M.Execution) (t : T) (p : Program C R Unit)
    (hrunning : pool.running e.state t = some (j, p))
    (hpast : ∀ x ∈ e.history, ∀ c r, pool.performs x.2 j c r → allowed c r) :
    Q p := by
  revert p
  apply Execution.induct (P := fun e =>
    (∀ x ∈ e.history, ∀ c r, pool.performs x.2 j c r → allowed c r) → ∀ p,
      pool.running e.state t = some (j, p) → Q p)
  · intro e _ hinit _ p hrunning
    rw [pool.initIdle e.state hinit t] at hrunning
    cases hrunning
  · intro e e' l ih hnext hpast p hrunning
    have hbefore := ih fun x hx => hpast x (hnext.later.mem_history hx)
    rcases pool.stepCases _ _ _ t j p hnext.1 hrunning with
      ⟨hsame, -⟩ | ⟨-, rfl⟩ | ⟨c, next, r, hcalling, hperforms, rfl⟩
    · exact hbefore p hsame
    · exact hcode
    · exact hcall c next r (hpast _ hnext.mem_history c r hperforms)
        (hbefore _ hcalling)
  · exact hpast

/-- What a job's code never issues, with replies like those it has had so far,
it does not issue from any point on. -/
theorem avoids_running (pool : ThreadPool M T J C R)
    {allowed : (c : C) → R c → Prop} {target : C → Prop} {j : J}
    (hcode : Program.Avoids allowed target (fun _ => True) (pool.code j))
    (e : M.Execution) (t : T) (p : Program C R Unit)
    (hrunning : pool.running e.state t = some (j, p))
    (hpast : ∀ x ∈ e.history, ∀ c r, pool.performs x.2 j c r → allowed c r) :
    Program.Avoids allowed target (fun _ => True) p :=
  pool.running_induct hcode
    (fun _ _ r hr hp => (Program.avoids_call.mp hp).2 r hr) e t p hrunning hpast

/-- If the code of every job pays its duties, so does what is running. -/
theorem pays_running (pool : ThreadPool M T J C R)
    {owes : (c : C) → R c → Program.Duty C R → Prop}
    (hcode : ∀ j, Program.Pays owes (pool.code j))
    (e : M.Execution) (t : T) (j : J) (p : Program C R Unit)
    (hrunning : pool.running e.state t = some (j, p)) : Program.Pays owes p :=
  @running_induct _ _ _ _ _ _ _ pool j (Program.Pays owes) (fun _ _ => True)
    (hcode j) (fun _ _ r _ hp => (hp r).2) e t p hrunning
    fun _ _ _ _ _ => trivial

/-! ### What one job has done -/

section Trace

variable [DecidableEq J]

/-- What the label adds to the past of the job. -/
def acts (pool : ThreadPool M T J C R) (j : J) (l : ℓ) :
    Option (Σ c : C, R c) :=
  match pool.action l with
  | some (j', a) => if j' = j then some a else none
  | none => none

theorem acts_eq_some {pool : ThreadPool M T J C R} {j : J} {l : ℓ}
    {a : Σ c : C, R c} :
    pool.acts j l = some a ↔ pool.action l = some (j, a) := by
  unfold acts
  split
  · next j' b heq =>
      rw [heq, Option.some.injEq, Prod.mk.injEq]
      split
      · next hj => simp [hj]
      · next hj => simp [hj]
  · next heq => simp [heq]

/-- The commands the job has issued in a run. -/
def trace (pool : ThreadPool M T J C R) (e : M.Execution) (j : J) :
    Program.Trace C R :=
  e.history.filterMap fun x => pool.acts j x.2

theorem trace_next_of_action {pool : ThreadPool M T J C R} {j : J}
    {e e' : M.Execution} {l : ℓ} {a : Σ c : C, R c} (hnext : e.Next l e')
    (ha : pool.action l = some (j, a)) :
    pool.trace e' j = a :: pool.trace e j := by
  simp only [trace, hnext.2, List.filterMap_cons, acts_eq_some.mpr ha]

theorem trace_next_of_other {pool : ThreadPool M T J C R} {j : J}
    {e e' : M.Execution} {l : ℓ} (hnext : e.Next l e')
    (hother : ∀ a, pool.action l ≠ some (j, a)) :
    pool.trace e' j = pool.trace e j := by
  have hnone : pool.acts j l = none := by
    rw [Option.eq_none_iff_forall_ne_some]
    intro a ha
    exact hother a (acts_eq_some.mp ha)
  simp only [trace, hnext.2, List.filterMap_cons, hnone]

theorem mem_trace {pool : ThreadPool M T J C R} {e : M.Execution} {j : J}
    {a : Σ c : C, R c} :
    a ∈ pool.trace e j ↔
      ∃ x ∈ e.history, pool.action x.2 = some (j, a) := by
  simp only [trace, List.mem_filterMap, acts_eq_some]

theorem mem_trace_next {pool : ThreadPool M T J C R} {e e' : M.Execution}
    {l : ℓ} {j : J} {a : Σ c : C, R c} (hnext : e.Next l e') :
    a ∈ pool.trace e' j ↔ pool.action l = some (j, a) ∨ a ∈ pool.trace e j := by
  simp only [mem_trace, hnext.2, List.exists_mem_cons_iff]

theorem trace_suffix {pool : ThreadPool M T J C R} {e e' : M.Execution}
    (h : e.Later e') (j : J) : pool.trace e j <:+ pool.trace e' j := by
  obtain ⟨before, hbefore⟩ := h.history_suffix
  rw [trace, trace, ← hbefore, List.filterMap_append]
  exact List.suffix_append _ _

/-- Every command in the past of a job was issued by a step, and the past the job
had then is what comes before it. -/
theorem exists_next_of_trace {pool : ThreadPool M T J C R} {j : J}
    {a : Σ c : C, R c} {past : Program.Trace C R} {e : M.Execution}
    (h : a :: past <:+ pool.trace e j) :
    ∃ (e₁ e₂ : M.Execution) (l : ℓ), e₁.Next l e₂ ∧ e₂.Later e ∧
      pool.action l = some (j, a) ∧ pool.trace e₁ j = past := by
  revert h
  apply Execution.induct (P := fun e => a :: past <:+ pool.trace e j →
    ∃ (e₁ e₂ : M.Execution) (l : ℓ), e₁.Next l e₂ ∧ e₂.Later e ∧
      pool.action l = some (j, a) ∧ pool.trace e₁ j = past)
  · intro e hnil _ hsuffix
    rw [trace, hnil, List.filterMap_nil, List.suffix_nil] at hsuffix
    cases hsuffix
  · intro e e' l ih hnext hsuffix
    have hearlier : a :: past <:+ pool.trace e j →
        ∃ (e₁ e₂ : M.Execution) (l : ℓ), e₁.Next l e₂ ∧ e₂.Later e' ∧
          pool.action l = some (j, a) ∧ pool.trace e₁ j = past := by
      intro hbefore
      obtain ⟨e₁, e₂, l', hstep, hlater, haction⟩ := ih hbefore
      exact ⟨e₁, e₂, l', hstep, hlater.trans hnext.later, haction⟩
    by_cases hacts : ∃ b, pool.action l = some (j, b)
    · obtain ⟨b, hb⟩ := hacts
      rw [trace_next_of_action hnext hb, List.suffix_cons_iff] at hsuffix
      rcases hsuffix with heq | hbefore
      · rw [List.cons.injEq] at heq
        obtain ⟨rfl, rfl⟩ := heq
        exact ⟨e, e', l, hnext, Execution.Later.refl e', hb, rfl⟩
      · exact hearlier hbefore
    · rw [trace_next_of_other hnext (not_exists.mp hacts)] at hsuffix
      exact hearlier hsuffix

/-- A command that a job had not issued at some point of a run was issued after
it. -/
theorem exists_next_of_mem_trace {pool : ThreadPool M T J C R} {j : J}
    {a : Σ c : C, R c} {e₀ e : M.Execution} (hlater : e₀.Later e)
    (ha : a ∈ pool.trace e j) (hbefore : a ∉ pool.trace e₀ j) :
    ∃ (e₁ e₂ : M.Execution) (l : ℓ), e₀.Later e₁ ∧ e₁.Next l e₂ ∧
      e₂.Later e ∧ pool.action l = some (j, a) := by
  obtain ⟨x, hx, haction⟩ := mem_trace.mp ha
  obtain ⟨e₁, e₂, -, hnext, hlater₂⟩ := Execution.exists_next_of_mem hx
  have hnot : ¬e₂.Later e₀ := by
    intro hpast
    exact hbefore (mem_trace.mpr ⟨_, hpast.mem_history hnext.mem_history,
      haction⟩)
  rcases hlater.total hlater₂ with hafter | hpast
  · rcases hafter.eq_or_before hnext with rfl | hfirst
    · exact absurd (Execution.Later.refl _) hnot
    · exact ⟨e₁, e₂, x.2, hfirst, hnext, hlater₂, haction⟩
  · exact absurd hpast hnot

/-- If the code of a job that has done nothing follows the rule, then so does
what is left of it in every execution, with the past the job then has. -/
theorem follows_running (pool : ThreadPool M T J C R)
    {rule : Program.Trace C R → C → Prop}
    {post : Program.Trace C R → Unit → Prop} {j : J}
    (hfresh : ∀ (e e' : M.Execution) l, e.Next l e' → pool.begins l j →
      pool.trace e' j = [])
    (hcode : Program.Follows rule post (pool.code j) [])
    (e : M.Execution) (t : T) (p : Program C R Unit)
    (hrunning : pool.running e.state t = some (j, p)) :
    Program.Follows rule post p (pool.trace e j) := by
  revert t p
  apply Execution.induct (P := fun e => ∀ t p,
    pool.running e.state t = some (j, p) →
      Program.Follows rule post p (pool.trace e j))
  · intro e _ hinit t p hrunning
    rw [pool.initIdle e.state hinit t] at hrunning
    cases hrunning
  · intro e e' l ih hnext t p hrunning
    rcases pool.stepCases _ _ _ t j p hnext.1 hrunning with
      ⟨hsame, hother⟩ | ⟨hbegin, rfl⟩ | ⟨c, next, r, hcalling, haction, rfl⟩
    · rw [trace_next_of_other hnext]
      · exact ih t p hsame
      · intro a ha
        obtain ⟨t', p', hne, hrunning'⟩ := hother a ha
        exact hne (pool.distinct e t' t j p' p hrunning' hsame)
    · rw [hfresh e e' l hnext hbegin]
      exact hcode
    · rw [trace_next_of_action hnext haction]
      exact (Program.follows_call.mp (ih t _ hcalling)).2 r

/-- Under the same conditions the past of the job is lawful, if commands are
issued by running programs only. -/
theorem lawful_trace (pool : ThreadPool M T J C R)
    {rule : Program.Trace C R → C → Prop}
    {post : Program.Trace C R → Unit → Prop} {j : J}
    (hfresh : ∀ (e e' : M.Execution) l, e.Next l e' → pool.begins l j →
      pool.trace e' j = [])
    (hcode : Program.Follows rule post (pool.code j) [])
    (hissued : ∀ s l s' a, M.step s l s' → pool.action l = some (j, a) →
      ∃ t next, pool.running s t = some (j, .call a.1 next))
    (e : M.Execution) : Program.Lawful rule (pool.trace e j) := by
  apply Execution.induct (P := fun e => Program.Lawful rule (pool.trace e j))
  · intro e hnil _
    rw [trace, hnil]
    trivial
  · intro e e' l ih hnext
    by_cases hacts : ∃ a, pool.action l = some (j, a)
    · obtain ⟨a, ha⟩ := hacts
      obtain ⟨t, next, hrunning⟩ := hissued _ _ _ a hnext.1 ha
      rw [trace_next_of_action hnext ha]
      refine ⟨?_, ih⟩
      exact (Program.follows_call.mp
        (pool.follows_running hfresh hcode e t _ hrunning)).1
    · rw [trace_next_of_other hnext (not_exists.mp hacts)]
      exact ih

end Trace

/-- Add up what each command of a run counts for, whoever issued it. -/
def total (pool : ThreadPool M T J C R) (e : M.Execution)
    (weight : (Σ c : C, R c) → ℕ) : ℕ :=
  (e.history.map fun x =>
    ((pool.action x.2).map fun a => weight a.2).getD 0).sum

section Total

variable {pool : ThreadPool M T J C R} {weight : (Σ c : C, R c) → ℕ}

theorem total_next_of_action {e e' : M.Execution} {l : ℓ} {j : J}
    {a : Σ c : C, R c} (hnext : e.Next l e')
    (ha : pool.action l = some (j, a)) :
    pool.total e' weight = weight a + pool.total e weight := by
  simp [total, hnext.2, ha]

theorem total_next_of_none {e e' : M.Execution} {l : ℓ} (hnext : e.Next l e')
    (hnone : pool.action l = none) :
    pool.total e' weight = pool.total e weight := by
  simp [total, hnext.2, hnone]

theorem tally_trace_le_total [DecidableEq J] (e : M.Execution) (j : J) :
    Program.tally weight (pool.trace e j) ≤ pool.total e weight := by
  apply Execution.induct (P := fun e =>
    Program.tally weight (pool.trace e j) ≤ pool.total e weight)
  · intro e hnil _
    simp [trace, hnil]
  · intro e e' l ih hnext
    cases haction : pool.action l with
    | none =>
        rw [trace_next_of_other hnext (by simp [haction]),
          total_next_of_none hnext haction]
        exact ih
    | some x =>
        obtain ⟨j', a⟩ := x
        rw [total_next_of_action hnext haction]
        by_cases hj : j' = j
        · subst hj
          rw [trace_next_of_action hnext haction, Program.tally_cons]
          omega
        · have hother : ∀ b, pool.action l ≠ some (j, b) := by
            intro b hb
            rw [haction, Option.some.injEq, Prod.mk.injEq] at hb
            exact hj hb.1
          rw [trace_next_of_other hnext hother]
          omega

/-- The past of a job only grows, and so does what it counts for. -/
theorem tally_trace_mono [DecidableEq J] {e e' : M.Execution}
    (h : e.Later e') (j : J) :
    Program.tally weight (pool.trace e j) ≤
      Program.tally weight (pool.trace e' j) := by
  obtain ⟨before, heq⟩ : pool.trace e j <:+ pool.trace e' j :=
    trace_suffix h j
  rw [← heq, Program.tally, Program.tally, List.map_append, List.sum_append]
  omega

/-- If only certain jobs issue commands that count, the total is theirs. -/
theorem total_le_sum_tally [DecidableEq J] (e : M.Execution) {js : List J}
    (honly : ∀ x ∈ e.history, ∀ j a, pool.action x.2 = some (j, a) →
      weight a ≠ 0 → j ∈ js) :
    pool.total e weight ≤
      (js.map fun j => Program.tally weight (pool.trace e j)).sum := by
  revert honly
  apply Execution.induct (P := fun e =>
    (∀ x ∈ e.history, ∀ j a, pool.action x.2 = some (j, a) →
      weight a ≠ 0 → j ∈ js) →
    pool.total e weight ≤
      (js.map fun j => Program.tally weight (pool.trace e j)).sum)
  · intro e hnil _ _
    simp [total, hnil]
  · intro e e' l ih hnext honly
    have hbefore := ih fun x hx => honly x (hnext.later.mem_history hx)
    have hgrows : ∀ js' : List J,
        (js'.map fun j => Program.tally weight (pool.trace e j)).sum ≤
          (js'.map fun j => Program.tally weight (pool.trace e' j)).sum :=
      fun _ => List.sum_le_sum fun j _ => tally_trace_mono hnext.later j
    cases haction : pool.action l with
    | none =>
        rw [total_next_of_none hnext haction]
        exact hbefore.trans (hgrows js)
    | some x =>
        obtain ⟨j, a⟩ := x
        rw [total_next_of_action hnext haction]
        by_cases hzero : weight a = 0
        · rw [hzero, Nat.zero_add]
          exact hbefore.trans (hgrows js)
        · obtain ⟨js₁, js₂, rfl⟩ := List.append_of_mem
            (honly _ hnext.mem_history j a haction hzero)
          have h₁ := hgrows js₁
          have h₂ := hgrows js₂
          have hj : Program.tally weight (pool.trace e' j) =
              weight a + Program.tally weight (pool.trace e j) := by
            rw [trace_next_of_action hnext haction, Program.tally_cons]
          simp only [List.map_append, List.map_cons, List.sum_append,
            List.sum_cons] at hbefore ⊢
          omega

end Total

end ThreadPool

/-! ## Projections -/

/-- A part of a system: each step of the whole is a step of the part, or leaves
the part alone. -/
structure Projection {σ' ℓ' : Type} (M : TransitionSystem σ ℓ)
    (N : TransitionSystem σ' ℓ') where
  onState : σ → σ'
  onLabel : ℓ → Option ℓ'
  init : ∀ s, M.init s → N.init (onState s)
  step : ∀ s l s' k, M.step s l s' → onLabel l = some k →
    N.step (onState s) k (onState s')
  stutter : ∀ s l s', M.step s l s' → onLabel l = none →
    onState s' = onState s

namespace Projection

variable {σ' ℓ' : Type} {M : TransitionSystem σ ℓ} {N : TransitionSystem σ' ℓ'}

/-- What the part has done. -/
def onHistory (π : Projection M N) (history : List (σ × ℓ)) :
    List (σ' × ℓ') :=
  history.filterMap fun x => (π.onLabel x.2).map fun k => (π.onState x.1, k)

theorem run_onHistory (π : Projection M N) {history : List (σ × ℓ)} {s : σ}
    (h : M.Run history s) : N.Run (π.onHistory history) (π.onState s) := by
  induction h with
  | init hinit => exact .init (π.init _ hinit)
  | @step past s s' l hrun hstep ih =>
      cases hl : π.onLabel l with
      | none =>
          rw [onHistory, List.filterMap_cons_none (by simp [hl]),
            π.stutter _ _ _ hstep hl]
          exact ih
      | some k =>
          rw [onHistory, List.filterMap_cons_some
            (b := (π.onState s, k)) (by simp [hl])]
          exact .step ih (π.step _ _ _ _ hstep hl)

/-- The run of the part inside a run of the whole. -/
def onRun (π : Projection M N) (e : M.Execution) : N.Execution where
  history := π.onHistory e.history
  state := π.onState e.state
  run := π.run_onHistory e.run

theorem onRun_next (π : Projection M N) {e e' : M.Execution} {l : ℓ} {k : ℓ'}
    (hnext : e.Next l e') (hl : π.onLabel l = some k) :
    (π.onRun e).Next k (π.onRun e') := by
  refine ⟨π.step _ _ _ _ hnext.1 hl, ?_⟩
  simp only [onRun, onHistory, hnext.2]
  rw [List.filterMap_cons_some (b := (π.onState e.state, k)) (by simp [hl])]

theorem onRun_stutter (π : Projection M N) {e e' : M.Execution} {l : ℓ}
    (hnext : e.Next l e') (hl : π.onLabel l = none) :
    π.onRun e' = π.onRun e := by
  have hstate : (π.onRun e').state = (π.onRun e).state :=
    π.stutter _ _ _ hnext.1 hl
  have hhistory : (π.onRun e').history = (π.onRun e).history := by
    simp only [onRun, onHistory, hnext.2]
    rw [List.filterMap_cons_none (by simp [hl])]
  cases h : π.onRun e'
  cases h' : π.onRun e
  simp_all

/-- What the part has done, the whole has done. -/
theorem exists_of_mem_onRun (π : Projection M N) {e : M.Execution} {s' : σ'} {k : ℓ'}
    (h : (s', k) ∈ (π.onRun e).history) :
    ∃ s l, (s, l) ∈ e.history ∧ π.onState s = s' ∧ π.onLabel l = some k := by
  obtain ⟨⟨s, l⟩, hmem, hsome⟩ := List.mem_filterMap.mp h
  obtain ⟨k', hl, heq⟩ := Option.map_eq_some_iff.mp hsome
  cases heq
  exact ⟨s, l, hmem, rfl, hl⟩

/-- What the run of the part tells is told by the run of the whole. -/
theorem log_onRun (π : Projection M N) {α : Type} (f : ℓ' → Option α)
    (e : M.Execution) :
    (π.onRun e).log f = e.log fun l => (π.onLabel l).bind f := by
  simp only [Execution.log, onRun, onHistory, List.filterMap_filterMap]
  congr 2
  funext x
  cases π.onLabel x.2 with
  | none => rfl
  | some k => rfl

theorem onRun_later (π : Projection M N) {e e' : M.Execution}
    (h : e.Later e') : (π.onRun e).Later (π.onRun e') := by
  apply h.preserves (P := fun e' => (π.onRun e).Later (π.onRun e'))
  · exact Execution.Later.refl _
  · intro e₁ e₂ l hlater hnext
    cases hl : π.onLabel l with
    | none =>
        rw [π.onRun_stutter hnext hl]
        exact hlater
    | some k => exact hlater.trans (π.onRun_next hnext hl).later

end Projection

end TransitionSystem
