import Mathlib.Logic.Relation
import Mathlib.Tactic

/-!
# Programs over atomic commands

A program is a tree: it has returned, or it issues one command and continues
with the reply.  Between two commands anything may happen to the shared state,
so a program carries only what its own replies told it.

`Safe` is the proof rule for programs under interference.  A contract says how
the surroundings may change the world (`rely`), what must hold before a command
is issued (`pre`), and what issuing it does (`act`).  A program is safe when
every command it can come to issue meets its precondition, whatever the
surroundings do in between.  `Avoids` and `Leads` speak about the program alone:
with replies of a given kind, it never issues a command of a given kind, or it
does so before it returns.  `Pays` says that some replies oblige the program to
issue a command later, and that it always does.  `Follows` speaks about what the
program has itself issued before, and how often.
-/

/-- Run the body on every element in turn. -/
def forEach {m : Type → Type} [Monad m] {β : Type} (xs : List β)
    (body : β → m Unit) : m Unit :=
  match xs with
  | [] => pure ()
  | x :: xs => do
      body x
      forEach xs body

/-- Run a query on every element in turn and keep the results found. -/
def collect {m : Type → Type} [Monad m] {α β : Type} (xs : List β)
    (query : β → m (Option α)) : m (List α) :=
  match xs with
  | [] => pure []
  | x :: xs => do
      let found ← query x
      let rest ← collect xs query
      pure (found.toList ++ rest)

/-- Programs that issue commands `c : C` answered by replies in `R c`. -/
inductive Program (C : Type) (R : C → Type) (α : Type) where
  | done (a : α)
  | call (c : C) (next : R c → Program C R α)

namespace Program

variable {C : Type} {R : C → Type} {α β : Type}

/-- Continue with `f` where the program returns. -/
def bind : Program C R α → (α → Program C R β) → Program C R β
  | .done a, f => f a
  | .call c next, f => .call c fun r => (next r).bind f

instance : Monad (Program C R) where
  pure := .done
  bind := Program.bind

/-- The program that issues one command and returns its reply. -/
def perform (c : C) : Program C R (R c) :=
  .call c .done

@[simp] theorem pure_eq (a : α) : (Pure.pure a : Program C R α) = .done a :=
  rfl

@[simp] theorem bind_eq (p : Program C R α) (f : α → Program C R β) :
    (p >>= f) = p.bind f :=
  rfl

@[simp] theorem done_bind (a : α) (f : α → Program C R β) :
    (Program.done a : Program C R α).bind f = f a :=
  rfl

@[simp] theorem call_bind (c : C) (next : R c → Program C R α)
    (f : α → Program C R β) :
    (Program.call c next).bind f = .call c fun r => (next r).bind f :=
  rfl

@[simp] theorem perform_bind (c : C) (f : R c → Program C R β) :
    (perform c).bind f = .call c f :=
  rfl

theorem bind_assoc {γ : Type} (p : Program C R α) (f : α → Program C R β)
    (g : β → Program C R γ) :
    (p.bind f).bind g = p.bind fun a => (f a).bind g := by
  induction p with
  | done a => rfl
  | call c next ih =>
      simp only [call_bind]
      congr 1
      funext r
      exact ih r

/-! ## Safety under interference -/

/-- What a program may assume and must guarantee in a world.  Both the
surroundings and the program itself let the world grow. -/
structure Contract (W : Type) (C : Type) (R : C → Type) where
  rely : W → W → Prop
  relyRefl : ∀ w, rely w w
  relyTrans : ∀ {w₁ w₂ w₃}, rely w₁ w₂ → rely w₂ w₃ → rely w₁ w₃
  pre : W → C → Prop
  act : W → (c : C) → R c → W → Prop
  grows : W → W → Prop
  growsTrans : ∀ {w₁ w₂ w₃}, grows w₁ w₂ → grows w₂ w₃ → grows w₁ w₃
  relyGrows : ∀ {w w'}, rely w w' → grows w w'
  actGrows : ∀ {w c r w'}, act w c r w' → grows w w'

theorem Contract.growsRefl {W : Type} (K : Contract W C R) (w : W) :
    K.grows w w :=
  K.relyGrows (K.relyRefl w)

variable {W : Type} {K : Contract W C R}

/-- Every command the program can come to issue meets its precondition, and
every result it can come to return satisfies `post`. -/
def Safe (K : Contract W C R) (post : W → α → Prop) :
    Program C R α → W → Prop
  | .done a, w => ∀ w', K.rely w w' → post w' a
  | .call c next, w =>
      ∀ w', K.rely w w' → K.pre w' c ∧
        ∀ r w'', K.act w' c r w'' → Safe K post (next r) w''

theorem Safe.rely {post : W → α → Prop} {p : Program C R α} {w w' : W}
    (h : Safe K post p w) (hw : K.rely w w') : Safe K post p w' := by
  cases p with
  | done a =>
      intro w'' hw''
      exact h w'' (K.relyTrans hw hw'')
  | call c next =>
      intro w'' hw''
      exact h w'' (K.relyTrans hw hw'')

theorem Safe.done {post : W → α → Prop} {a : α} {w : W}
    (h : ∀ w', K.rely w w' → post w' a) :
    Safe K post (.done a : Program C R α) w :=
  h

theorem Safe.call {post : W → α → Prop} {c : C} {next : R c → Program C R α}
    {w : W} (hpre : ∀ w', K.rely w w' → K.pre w' c)
    (hnext : ∀ w' r w'', K.rely w w' → K.act w' c r w'' →
      Safe K post (next r) w'') :
    Safe K post (.call c next) w := by
  intro w' hw'
  exact ⟨hpre w' hw', fun r w'' hact => hnext w' r w'' hw' hact⟩

/-- Sequential composition.  The continuation starts in a later world in which
the first part's postcondition holds. -/
theorem Safe.bind {mid : W → α → Prop} {post : W → β → Prop}
    {p : Program C R α} {f : α → Program C R β} {w : W}
    (hp : Safe K mid p w)
    (hf : ∀ a w', K.grows w w' → mid w' a → Safe K post (f a) w') :
    Safe K post (p.bind f) w := by
  induction p generalizing w with
  | done a =>
      exact hf a w (K.growsRefl w) (hp w (K.relyRefl w))
  | call c next ih =>
      intro w' hw'
      obtain ⟨hpre, hnext⟩ := hp w' hw'
      refine ⟨hpre, fun r w'' hact => ?_⟩
      apply ih r (hnext r w'' hact)
      intro a w₃ hw₃ hmid
      exact hf a w₃ (K.growsTrans (K.relyGrows hw')
        (K.growsTrans (K.actGrows hact) hw₃)) hmid

theorem Safe.weaken {mid post : W → α → Prop} {p : Program C R α} {w : W}
    (hp : Safe K mid p w)
    (hpost : ∀ a w', K.grows w w' → mid w' a → post w' a) :
    Safe K post p w := by
  induction p generalizing w with
  | done a =>
      intro w' hw'
      exact hpost a w' (K.relyGrows hw') (hp w' hw')
  | call c next ih =>
      intro w' hw'
      obtain ⟨hpre, hnext⟩ := hp w' hw'
      refine ⟨hpre, fun r w'' hact => ih r (hnext r w'' hact) ?_⟩
      intro a w₃ hw₃ hmid
      exact hpost a w₃ (K.growsTrans (K.relyGrows hw')
        (K.growsTrans (K.actGrows hact) hw₃)) hmid

/-- A loop keeps what its body keeps, if the surroundings keep it too. -/
theorem safe_forEach_keeps {xs : List β} {body : β → Program C R Unit} {w : W}
    (keeps : W → Prop)
    (hrely : ∀ w w', keeps w → K.rely w w' → keeps w')
    (hbody : ∀ x ∈ xs, ∀ w', K.grows w w' → keeps w' →
      Safe K (fun w _ => keeps w) (body x) w') (hw : keeps w) :
    Safe K (fun w _ => keeps w) (forEach xs body) w := by
  induction xs generalizing w with
  | nil =>
      intro w' hw'
      exact hrely w w' hw hw'
  | cons x xs ih =>
      apply Safe.bind (hbody x (by simp) w (K.growsRefl w) hw)
      intro _ w' hw' hkeeps
      refine ih ?_ hkeeps
      intro y hy w'' hw'' hkeeps'
      exact hbody y (by simp [hy]) w'' (K.growsTrans hw' hw'') hkeeps'

/-- A loop is safe when its body is safe in every later world. -/
theorem safe_forEach {xs : List β} {body : β → Program C R Unit} {w : W}
    (hbody : ∀ x ∈ xs, ∀ w', K.grows w w' →
      Safe K (fun _ _ => True) (body x) w') :
    Safe K (fun _ _ => True) (forEach xs body) w :=
  safe_forEach_keeps (fun _ => True) (fun _ _ _ _ => trivial)
    (fun x hx w' hw' _ => hbody x hx w' hw') trivial

/-- Collecting query results: what every result satisfies when it is found, and
keeps in later worlds, all collected results satisfy. -/
theorem safe_collect {xs : List β} {query : β → Program C R (Option α)} {w : W}
    (found : W → α → Prop)
    (hstable : ∀ a w₁ w₂, K.grows w₁ w₂ → found w₁ a → found w₂ a)
    (hquery : ∀ x ∈ xs, ∀ w', K.grows w w' →
      Safe K (fun w o => ∀ a ∈ o, found w a) (query x) w') :
    Safe K (fun w l => ∀ a ∈ l, found w a) (collect xs query) w := by
  induction xs generalizing w with
  | nil =>
      intro w' _ a ha
      simp at ha
  | cons x xs ih =>
      apply Safe.bind (hquery x (by simp) w (K.growsRefl w))
      intro o w₁ hw₁ ho
      have hrest : Safe K (fun w l => ∀ a ∈ l, found w a)
          (collect xs query) w₁ := by
        apply ih
        intro y hy w' hw'
        exact hquery y (by simp [hy]) w' (K.growsTrans hw₁ hw')
      apply Safe.bind hrest
      intro l w₂ hw₂ hl w₃ hw₃ a ha
      have hgrows := K.relyGrows hw₃
      rw [List.mem_append, Option.mem_toList] at ha
      rcases ha with ha | ha
      · exact hstable a w₁ w₃ (K.growsTrans hw₂ hgrows) (ho a ha)
      · exact hstable a w₂ w₃ hgrows (hl a ha)

/-! ## The program alone -/

/-- The contract under which only the program's own replies count. -/
def pathContract (allowed : (c : C) → R c → Prop) (target : C → Prop) :
    Contract Unit C R where
  rely _ _ := True
  relyRefl _ := trivial
  relyTrans _ _ := trivial
  pre _ c := ¬target c
  act _ c r _ := allowed c r
  grows _ _ := True
  growsTrans _ _ := trivial
  relyGrows _ := trivial
  actGrows _ := trivial

/-- With replies restricted to `allowed`, the program never issues a command in
`target`, and what it returns satisfies `post`. -/
def Avoids (allowed : (c : C) → R c → Prop) (target : C → Prop)
    (post : α → Prop) (p : Program C R α) : Prop :=
  Safe (pathContract allowed target) (fun _ a => post a) p ()

section Avoids

variable {allowed : (c : C) → R c → Prop} {target : C → Prop}

theorem avoids_done {post : α → Prop} {a : α} :
    Avoids allowed target post (.done a : Program C R α) ↔ post a :=
  ⟨fun h => h () trivial, fun h _ _ => h⟩

theorem avoids_call {post : α → Prop} {c : C} {next : R c → Program C R α} :
    Avoids allowed target post (.call c next) ↔
      ¬target c ∧ ∀ r, allowed c r → Avoids allowed target post (next r) := by
  constructor
  · intro h
    obtain ⟨hc, hnext⟩ := h () trivial
    exact ⟨hc, fun r hr => hnext r () hr⟩
  · intro h _ _
    exact ⟨h.1, fun r _ hr => h.2 r hr⟩

theorem Avoids.bind {mid : α → Prop} {post : β → Prop} {p : Program C R α}
    {f : α → Program C R β} (hp : Avoids allowed target mid p)
    (hf : ∀ a, mid a → Avoids allowed target post (f a)) :
    Avoids allowed target post (p.bind f) :=
  Safe.bind hp fun a _ _ ha => hf a ha

theorem Avoids.weaken {mid post : α → Prop} {p : Program C R α}
    (hp : Avoids allowed target mid p) (hpost : ∀ a, mid a → post a) :
    Avoids allowed target post p :=
  Safe.weaken hp fun a _ _ ha => hpost a ha

/-- Fewer replies to reckon with. -/
theorem Avoids.mono {allowed' : (c : C) → R c → Prop} {post : α → Prop}
    {p : Program C R α} (hp : Avoids allowed target post p)
    (hallowed : ∀ c r, allowed' c r → allowed c r) :
    Avoids allowed' target post p := by
  induction p with
  | done a => exact avoids_done.mpr (avoids_done.mp hp)
  | call c next ih =>
      obtain ⟨hc, hnext⟩ := avoids_call.mp hp
      refine avoids_call.mpr ⟨hc, fun r hr => ?_⟩
      exact ih r (hnext r (hallowed c r hr))

/-- Fewer commands to avoid. -/
theorem Avoids.subset {target' : C → Prop} {post : α → Prop} {p : Program C R α}
    (hp : Avoids allowed target post p) (htarget : ∀ c, target' c → target c) :
    Avoids allowed target' post p := by
  induction p with
  | done a => exact avoids_done.mpr (avoids_done.mp hp)
  | call c next ih =>
      obtain ⟨hc, hnext⟩ := avoids_call.mp hp
      refine avoids_call.mpr ⟨fun h => hc (htarget c h), fun r hr => ?_⟩
      exact ih r (hnext r hr)

theorem avoids_perform {c : C} (hc : ¬target c) :
    Avoids allowed target (allowed c) (perform c : Program C R (R c)) := by
  refine avoids_call.mpr ⟨hc, ?_⟩
  intro r hr
  exact avoids_done.mpr hr

theorem avoids_forEach {xs : List β} {body : β → Program C R Unit}
    (hbody : ∀ x ∈ xs, Avoids allowed target (fun _ => True) (body x)) :
    Avoids allowed target (fun _ => True) (forEach xs body) :=
  safe_forEach fun x hx _ _ => hbody x hx

theorem avoids_collect {xs : List β} {query : β → Program C R (Option α)}
    (found : α → Prop)
    (hquery : ∀ x ∈ xs,
      Avoids allowed target (fun o => ∀ a ∈ o, found a) (query x)) :
    Avoids allowed target (fun l => ∀ a ∈ l, found a) (collect xs query) :=
  safe_collect (fun _ a => found a) (fun _ _ _ _ h => h)
    fun x hx _ _ => hquery x hx

end Avoids

/-- A fact that only some commands can destroy survives a program that never
issues them. -/
theorem Safe.frame {touches : C → Prop} {keeps : W → Prop}
    {post : W → α → Prop} {p : Program C R α} {w : W}
    (hrely : ∀ w w', keeps w → K.rely w w' → keeps w')
    (hact : ∀ w c r w', keeps w → ¬touches c → K.act w c r w' → keeps w')
    (havoids : Avoids (fun _ _ => True) touches (fun _ => True) p)
    (hp : Safe K post p w) (hw : keeps w) :
    Safe K (fun w a => keeps w ∧ post w a) p w := by
  induction p generalizing w with
  | done a =>
      intro w' hw'
      exact ⟨hrely w w' hw hw', hp w' hw'⟩
  | call c next ih =>
      obtain ⟨hc, hnext⟩ := avoids_call.mp havoids
      intro w' hw'
      refine ⟨(hp w' hw').1, fun r w'' hr => ?_⟩
      apply ih r (hnext r trivial) ((hp w' hw').2 r w'' hr)
      exact hact w' c r w'' (hrely w w' hw hw') hc hr

/-! ## Commands that are bound to follow -/

/-- With replies restricted to `allowed`, the program issues a command in
`target` before it returns, unless what it returns satisfies `post`. -/
def Leads (allowed : (c : C) → R c → Prop) (target : C → Prop)
    (post : α → Prop) : Program C R α → Prop
  | .done a => post a
  | .call c next =>
      target c ∨ ∀ r, allowed c r → Leads allowed target post (next r)

section Leads

variable {allowed : (c : C) → R c → Prop} {target : C → Prop}

theorem Leads.bind {mid : α → Prop} {post : β → Prop} {p : Program C R α}
    {f : α → Program C R β} (hp : Leads allowed target mid p)
    (hf : ∀ a, mid a → Leads allowed target post (f a)) :
    Leads allowed target post (p.bind f) := by
  induction p with
  | done a => exact hf a hp
  | call c next ih =>
      rcases hp with hc | hnext
      · exact .inl hc
      · exact .inr fun r hr => ih r (hnext r hr)

/-- What is bound to follow is bound to follow whatever comes afterwards. -/
theorem Leads.bind_of_false {post : β → Prop} {p : Program C R α}
    {f : α → Program C R β} (hp : Leads allowed target (fun _ => False) p) :
    Leads allowed target post (p.bind f) :=
  hp.bind fun _ h => h.elim

theorem leads_true (p : Program C R α) :
    Leads allowed target (fun _ => True) p := by
  induction p with
  | done a => trivial
  | call c next ih => exact .inr fun r _ => ih r

theorem leads_perform (c : C) :
    Leads allowed target (allowed c) (perform c : Program C R (R c)) :=
  .inr fun _ hr => hr

/-- A loop comes to every element. -/
theorem leads_forEach {xs : List β} {x : β} {body : β → Program C R Unit}
    (hx : x ∈ xs) (hbody : Leads allowed target (fun _ => False) (body x)) :
    Leads allowed target (fun _ => False) (forEach xs body) := by
  induction xs with
  | nil => cases hx
  | cons y ys ih =>
      rcases List.mem_cons.mp hx with rfl | hmem
      · exact hbody.bind_of_false
      · exact (leads_true (body y)).bind fun _ _ => ih hmem

/-- A result that one of the queries is bound to find is among the results. -/
theorem leads_collect {xs : List β} {x : β}
    {query : β → Program C R (Option α)} {found : α → Prop} (hx : x ∈ xs)
    (hquery : Leads allowed target (fun o => ∃ a ∈ o, found a) (query x)) :
    Leads allowed target (fun l => ∃ a ∈ l, found a) (collect xs query) := by
  induction xs with
  | nil => cases hx
  | cons y ys ih =>
      rcases List.mem_cons.mp hx with rfl | hmem
      · refine hquery.bind fun o ho => (leads_true _).bind fun l _ => ?_
        obtain ⟨a, ha, hfound⟩ := ho
        exact ⟨a, List.mem_append_left l (Option.mem_toList.mpr ha), hfound⟩
      · refine (leads_true _).bind fun o _ => (ih hmem).bind fun l hl => ?_
        obtain ⟨a, ha, hfound⟩ := hl
        exact ⟨a, List.mem_append_right o.toList ha, hfound⟩

end Leads

/-- A command that is bound to follow, under some restriction of the replies. -/
structure Duty (C : Type) (R : C → Type) where
  allowed : (c : C) → R c → Prop
  target : C → Prop

/-- Whenever the program gets a reply that obliges it to something, it is bound
to do it. -/
def Pays (owes : (c : C) → R c → Duty C R → Prop) : Program C R α → Prop
  | .done _ => True
  | .call c next => ∀ r,
      (∀ d, owes c r d → Leads d.allowed d.target (fun _ => False) (next r)) ∧
        Pays owes (next r)

section Pays

variable {owes : (c : C) → R c → Duty C R → Prop}

theorem Pays.bind {p : Program C R α} {f : α → Program C R β}
    (hp : Pays owes p) (hf : ∀ a, Pays owes (f a)) : Pays owes (p.bind f) := by
  induction p with
  | done a => exact hf a
  | call c next ih =>
      intro r
      obtain ⟨hduties, hnext⟩ := hp r
      exact ⟨fun d hd => (hduties d hd).bind_of_false, ih r hnext⟩

/-- A command none of whose replies obliges to anything. -/
theorem pays_perform {c : C} (hc : ∀ r d, ¬owes c r d) :
    Pays owes (perform c : Program C R (R c)) :=
  fun r => ⟨fun d hd => absurd hd (hc r d), trivial⟩

theorem pays_forEach {xs : List β} {body : β → Program C R Unit}
    (hbody : ∀ x ∈ xs, Pays owes (body x)) : Pays owes (forEach xs body) := by
  induction xs with
  | nil => trivial
  | cons x xs ih =>
      refine (hbody x (by simp)).bind fun _ => ih fun y hy => ?_
      exact hbody y (by simp [hy])

theorem pays_collect {xs : List β} {query : β → Program C R (Option α)}
    (hquery : ∀ x ∈ xs, Pays owes (query x)) :
    Pays owes (collect xs query) := by
  induction xs with
  | nil => trivial
  | cons x xs ih =>
      refine (hquery x (by simp)).bind fun _ => ?_
      have hrest : Pays owes (collect xs query) :=
        ih fun y hy => hquery y (by simp [hy])
      exact hrest.bind fun _ => trivial

end Pays

/-! ## Commands that are issued once -/

/-- The program issues exactly one command in `target` before it returns, and this
one is `good`. -/
def Once (target good : C → Prop) : Program C R α → Prop
  | .done _ => False
  | .call c next =>
      target c ∧ good c ∧
          (∀ r, Avoids (fun _ _ => True) target (fun _ => True) (next r)) ∨
        ¬target c ∧ ∀ r, Once target good (next r)

section Once

variable {target good : C → Prop}

theorem once_call {c : C} {next : R c → Program C R α} :
    Once target good (.call c next) ↔
      target c ∧ good c ∧
          (∀ r, Avoids (fun _ _ => True) target (fun _ => True) (next r)) ∨
        ¬target c ∧ ∀ r, Once target good (next r) :=
  Iff.rfl

/-- The command, and then nothing more of its kind. -/
theorem once_first {c : C} {next : R c → Program C R α} (hc : target c)
    (hgood : good c)
    (hnext : ∀ r, Avoids (fun _ _ => True) target (fun _ => True) (next r)) :
    Once target good (.call c next) :=
  .inl ⟨hc, hgood, hnext⟩

theorem Avoids.once_bind {p : Program C R α} {f : α → Program C R β}
    (hp : Avoids (fun _ _ => True) target (fun _ => True) p)
    (hf : ∀ a, Once target good (f a)) : Once target good (p.bind f) := by
  induction p with
  | done a => exact hf a
  | call c next ih =>
      obtain ⟨hc, hnext⟩ := avoids_call.mp hp
      exact .inr ⟨hc, fun r => ih r (hnext r trivial)⟩

end Once

/-! ## The program's own past -/

/-- What a program has issued and been told so far, most recent first. -/
abbrev Trace (C : Type) (R : C → Type) := List (Σ c : C, R c)

/-- The contract under which the program's own past decides what it may
issue. -/
def traceContract (rule : Trace C R → C → Prop) :
    Contract (Trace C R) C R where
  rely τ τ' := τ' = τ
  relyRefl _ := rfl
  relyTrans h₁ h₂ := h₂.trans h₁
  pre := rule
  act τ c r τ' := τ' = ⟨c, r⟩ :: τ
  grows τ τ' := τ <:+ τ'
  growsTrans h₁ h₂ := h₁.trans h₂
  relyGrows h := by
    rw [h]
  actGrows h := by
    rw [h]
    exact List.suffix_cons _ _

/-- With the past `τ`, every command the program comes to issue meets the rule,
and what it returns satisfies `post`. -/
def Follows (rule : Trace C R → C → Prop) (post : Trace C R → α → Prop)
    (p : Program C R α) (τ : Trace C R) : Prop :=
  Safe (traceContract rule) post p τ

section Follows

variable {rule : Trace C R → C → Prop} {τ : Trace C R}

theorem follows_done {post : Trace C R → α → Prop} {a : α} :
    Follows rule post (.done a : Program C R α) τ ↔ post τ a := by
  constructor
  · intro h
    exact h τ rfl
  · rintro h _ rfl
    exact h

theorem follows_call {post : Trace C R → α → Prop} {c : C}
    {next : R c → Program C R α} :
    Follows rule post (.call c next) τ ↔
      rule τ c ∧ ∀ r, Follows rule post (next r) (⟨c, r⟩ :: τ) := by
  constructor
  · intro h
    obtain ⟨hc, hnext⟩ := h τ rfl
    exact ⟨hc, fun r => hnext r _ rfl⟩
  · rintro ⟨hc, hnext⟩ _ rfl
    refine ⟨hc, ?_⟩
    rintro r _ rfl
    exact hnext r

theorem Follows.bind {mid : Trace C R → α → Prop} {post : Trace C R → β → Prop}
    {p : Program C R α} {f : α → Program C R β} (hp : Follows rule mid p τ)
    (hf : ∀ a τ', τ <:+ τ' → mid τ' a → Follows rule post (f a) τ') :
    Follows rule post (p.bind f) τ :=
  Safe.bind hp hf

/-- What every command but those in `target` keeps and permits, a program without
them keeps. -/
theorem follows_of_avoids {target : C → Prop} {inv : Trace C R → Prop}
    {p : Program C R α}
    (hstep : ∀ τ c, inv τ → ¬target c → rule τ c ∧ ∀ r, inv (⟨c, r⟩ :: τ))
    (hp : Avoids (fun _ _ => True) target (fun _ => True) p) (hinv : inv τ) :
    Follows rule (fun τ' _ => inv τ') p τ := by
  induction p generalizing τ with
  | done a => exact follows_done.mpr hinv
  | call c next ih =>
      obtain ⟨hc, hnext⟩ := avoids_call.mp hp
      obtain ⟨hrule, hkeeps⟩ := hstep τ c hinv hc
      refine follows_call.mpr ⟨hrule, fun r => ?_⟩
      exact ih r (hnext r trivial) (hkeeps r)

theorem Follows.weaken {mid post : Trace C R → α → Prop} {p : Program C R α}
    (hp : Follows rule mid p τ)
    (hpost : ∀ a τ', τ <:+ τ' → mid τ' a → post τ' a) :
    Follows rule post p τ :=
  Safe.weaken hp hpost

end Follows

/-- Every command of the past met the rule when it was issued. -/
def Lawful (rule : Trace C R → C → Prop) : Trace C R → Prop
  | [] => True
  | a :: τ => rule τ a.1 ∧ Lawful rule τ

/-- A command of a lawful past met the rule. -/
theorem Lawful.rule_of_mem {rule : Trace C R → C → Prop} {τ : Trace C R}
    (h : Lawful rule τ) {a : Σ c : C, R c} (ha : a ∈ τ) :
    ∃ τ', τ' <:+ τ ∧ Lawful rule τ' ∧ rule τ' a.1 := by
  induction τ with
  | nil => cases ha
  | cons b τ ih =>
      rcases List.mem_cons.mp ha with rfl | ha
      · exact ⟨τ, List.suffix_cons _ _, h.2, h.1⟩
      · obtain ⟨τ', hsuffix, hlawful, hrule⟩ := ih h.2 ha
        exact ⟨τ', hsuffix.trans (List.suffix_cons _ _), hlawful, hrule⟩

/-- What the rule allows once at most, a lawful past has once at most. -/
theorem Lawful.eq_of_mem {rule : Trace C R → C → Prop} {τ : Trace C R}
    {Q : (Σ c : C, R c) → Prop}
    (honce : ∀ τ a, rule τ a.1 → Q a → ∀ b ∈ τ, ¬Q b)
    (h : Lawful rule τ) {a b : Σ c : C, R c} (ha : a ∈ τ) (hb : b ∈ τ)
    (hQa : Q a) (hQb : Q b) : a = b := by
  induction τ with
  | nil => cases ha
  | cons x τ ih =>
      rcases List.mem_cons.mp ha with rfl | ha'
      · rcases List.mem_cons.mp hb with rfl | hb'
        · rfl
        · exact absurd hQb (honce τ a h.1 hQa b hb')
      · rcases List.mem_cons.mp hb with rfl | hb'
        · exact absurd hQa (honce τ b h.1 hQb a ha')
        · exact ih h.2 ha' hb'

/-- Add up what each command of the past counts for. -/
def tally (weight : (Σ c : C, R c) → ℕ) (τ : Trace C R) : ℕ :=
  (τ.map weight).sum

@[simp] theorem tally_nil (weight : (Σ c : C, R c) → ℕ) :
    tally weight [] = 0 :=
  rfl

@[simp] theorem tally_cons (weight : (Σ c : C, R c) → ℕ) (a : Σ c : C, R c)
    (τ : Trace C R) : tally weight (a :: τ) = weight a + tally weight τ := by
  simp [tally]

end Program
