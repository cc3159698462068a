import Mathlib.Data.Finset.Option
import Mathlib.Data.Finset.Lattice.Basic
import Mathlib.Logic.Function.Basic

/-!
# Feeds

A feed has entries at places.  An entry may come with a label, or it may get its
label later, when a key under which it waits is settled.  Labels that were seen
are remembered, and an entry that comes with one of them is left out.  When every
label is at one place only depends on the entries that are settled late.

The first part is about tables in which no value is at two places.
-/

namespace Labelling

variable {α β γ : Type}

/-- No two places have the same value. -/
def OneToOne (f : α → Option β) : Prop :=
  ∀ a a' b, f a = some b → f a' = some b → a = a'

theorem oneToOne_none : OneToOne fun _ : α => (none : Option β) := by
  intro a a' b h
  cases h

theorem OneToOne.of_le {f g : α → Option β} (h : OneToOne f)
    (hle : ∀ a b, g a = some b → f a = some b) : OneToOne g :=
  fun a a' b ha ha' => h a a' b (hle a b ha) (hle a' b ha')

theorem OneToOne.update [DecidableEq α] {f : α → Option β} (h : OneToOne f)
    {a : α} {b : Option β} (hnew : ∀ a', a' ≠ a → ∀ x, f a' = some x → b ≠ some x) :
    OneToOne (Function.update f a b) := by
  intro a₁ a₂ x h₁ h₂
  rw [Function.update_apply] at h₁ h₂
  by_cases ha₁ : a₁ = a
  · rw [if_pos ha₁] at h₁
    by_cases ha₂ : a₂ = a
    · exact ha₁.trans ha₂.symm
    · rw [if_neg ha₂] at h₂
      exact absurd h₁ (hnew a₂ ha₂ x h₂)
  · rw [if_neg ha₁] at h₁
    by_cases ha₂ : a₂ = a
    · rw [if_pos ha₂] at h₂
      exact absurd h₂ (hnew a₁ ha₁ x h₁)
    · rw [if_neg ha₂] at h₂
      exact h a₁ a₂ x h₁ h₂

/-- Emptying a place. -/
theorem OneToOne.erase [DecidableEq α] {f : α → Option β} (h : OneToOne f)
    (a : α) : OneToOne (Function.update f a none) :=
  h.update fun _ _ _ _ hnone => nomatch hnone

section Labels

variable [DecidableEq β] {f : α → Option β} {label : β → Option γ} {b : β}

/-- The label of an object matters only where the object is. -/
theorem bind_update_label (label : β → Option γ) (b : β) (c : Option γ) (a : α) :
    (f a).bind (Function.update label b c) =
      if f a = some b then c else (f a).bind label := by
  cases hfa : f a with
  | none => rfl
  | some b' =>
      rw [Option.bind_some, Option.bind_some, Function.update_apply]
      simp only [Option.some.injEq]

/-- An object in a table gets a label that no other object in it has. -/
theorem OneToOne.relabel (hf : OneToOne f)
    (h : OneToOne fun a => (f a).bind label) {c : Option γ}
    (hnew : ∀ a, f a = some b → ∀ a' x, (f a').bind label = some x →
      c ≠ some x) :
    OneToOne fun a => (f a).bind (Function.update label b c) := by
  intro a₁ a₂ x h₁ h₂
  simp only [bind_update_label] at h₁ h₂
  by_cases hb₁ : f a₁ = some b
  · rw [if_pos hb₁] at h₁
    by_cases hb₂ : f a₂ = some b
    · exact hf a₁ a₂ b hb₁ hb₂
    · rw [if_neg hb₂] at h₂
      exact absurd h₁ (hnew a₁ hb₁ a₂ x h₂)
  · rw [if_neg hb₁] at h₁
    by_cases hb₂ : f a₂ = some b
    · rw [if_pos hb₂] at h₂
      exact absurd h₂ (hnew a₂ hb₂ a₁ x h₁)
    · rw [if_neg hb₂] at h₂
      exact h a₁ a₂ x h₁ h₂

end Labels

end Labelling

open Labelling

/-- The entries are numbered. -/
structure Feed (P K I : Type) where
  entry : P → Option ℕ
  label : ℕ → Option I
  waiting : K → Option ℕ
  seen : Finset I
  next : ℕ

namespace Feed

variable {P K I : Type}

/-- The label that is shown at a place. -/
def shown (f : Feed P K I) (place : P) : Option I :=
  (f.entry place).bind f.label

/-- No label is shown at two places. -/
def Once (f : Feed P K I) : Prop :=
  OneToOne f.shown

/-! ## What can happen to a feed -/

/-- A new entry. -/
def push [DecidableEq P] [DecidableEq I] (f : Feed P K I) (place : P)
    (x : Option I) : Feed P K I :=
  { f with
    entry := Function.update f.entry place (some f.next)
    label := Function.update f.label f.next x
    seen := f.seen ∪ x.toFinset
    next := f.next + 1 }

/-- A new entry that gets its label when the key is settled. -/
def post [DecidableEq P] [DecidableEq K] [DecidableEq I] (f : Feed P K I)
    (place : P) (key : K) : Feed P K I :=
  { f.push place none with
    waiting := Function.update f.waiting key (some f.next) }

/-- Entries go. -/
def clear (f : Feed P K I) (keep : P → Bool) : Feed P K I :=
  { f with entry := fun place => if keep place then f.entry place else none }

/-- Everything that was remembered goes. -/
def reset (f : Feed P K I) : Feed P K I :=
  { f with entry := fun _ => none, waiting := fun _ => none, seen := ∅ }

/-- The entry `n`, which waits under the key, gets its label. -/
def settle [DecidableEq K] [DecidableEq I] (f : Feed P K I) (key : K) (n : ℕ)
    (x : Option I) : Feed P K I :=
  { f with
    label := Function.update f.label n x
    waiting := Function.update f.waiting key none
    seen := f.seen ∪ x.toFinset }

/-- Everything that can happen, but for the settling. -/
inductive Grows [DecidableEq P] [DecidableEq K] [DecidableEq I]
    (f : Feed P K I) : Feed P K I → Prop where
  | same : f.Grows f
  | push (place : P) (x : Option I) (hplace : f.entry place = none)
      (hnew : Disjoint x.toFinset f.seen) : f.Grows (f.push place x)
  | post (place : P) (key : K) (hplace : f.entry place = none) :
      f.Grows (f.post place key)
  | clear (keep : P → Bool) : f.Grows (f.clear keep)
  | reset : f.Grows f.reset

/-! ## What always holds -/

/-- An entry is at one place and waits under one key; it has no label while it
waits, and a label that is shown was seen. -/
structure Sound (f : Feed P K I) : Prop where
  entry_lt : ∀ place n, f.entry place = some n → n < f.next
  waiting_lt : ∀ key n, f.waiting key = some n → n < f.next
  entries : OneToOne f.entry
  waits : OneToOne f.waiting
  unlabelled : ∀ key n, f.waiting key = some n → f.label n = none
  known : ∀ place x, f.shown place = some x → x ∈ f.seen

theorem Sound.shown_push [DecidableEq P] [DecidableEq I] {f : Feed P K I}
    (h : f.Sound) (place : P) (x : Option I) :
    (f.push place x).shown = Function.update f.shown place x := by
  funext place'
  simp only [shown, push, Function.update_apply]
  by_cases hplace : place' = place
  · simp [hplace]
  · rw [if_neg hplace, if_neg hplace]
    cases hentry : f.entry place' with
    | none => rfl
    | some n =>
        rw [Option.bind_some, Option.bind_some,
          if_neg (h.entry_lt place' n hentry).ne]

theorem shown_settle [DecidableEq K] [DecidableEq I] (f : Feed P K I) (key : K)
    (n : ℕ) (x : Option I) (place : P) :
    (f.settle key n x).shown place =
      if f.entry place = some n then x else f.shown place :=
  bind_update_label f.label n x place

theorem shown_clear (f : Feed P K I) (keep : P → Bool) (place : P) :
    (f.clear keep).shown place = if keep place then f.shown place else none := by
  rw [shown, clear]
  dsimp only
  split
  · rfl
  · rfl

theorem sound_empty (label : ℕ → Option I) (next : ℕ) :
    (Feed.mk (fun _ => none) label (fun _ => none) ∅ next : Feed P K I).Sound where
  entry_lt _ _ h := nomatch h
  waiting_lt _ _ h := nomatch h
  entries := oneToOne_none
  waits := oneToOne_none
  unlabelled _ _ h := nomatch h
  known _ _ h := nomatch h

theorem Sound.push [DecidableEq P] [DecidableEq I] {f : Feed P K I}
    (h : f.Sound) (place : P) (x : Option I) :
    (f.push place x).Sound where
  entry_lt place' n hentry := by
    simp only [Feed.push, Function.update_apply] at hentry ⊢
    split at hentry
    · cases hentry
      exact Nat.lt_succ_self _
    · exact Nat.lt_succ_of_lt (h.entry_lt place' n hentry)
  waiting_lt key n hwaiting := Nat.lt_succ_of_lt (h.waiting_lt key n hwaiting)
  entries := by
    apply h.entries.update
    rintro place' - n hentry heq
    cases heq
    exact absurd (h.entry_lt place' _ hentry) (lt_irrefl _)
  waits := h.waits
  unlabelled key n hwaiting := by
    simp only [Feed.push]
    rw [Function.update_of_ne (h.waiting_lt key n hwaiting).ne]
    exact h.unlabelled key n hwaiting
  known place' y hshown := by
    rw [h.shown_push, Function.update_apply] at hshown
    rw [Feed.push, Finset.mem_union]
    split at hshown
    · exact .inr (Option.mem_toFinset.mpr hshown)
    · exact .inl (h.known place' y hshown)

theorem Sound.post [DecidableEq P] [DecidableEq K] [DecidableEq I]
    {f : Feed P K I} (h : f.Sound) (place : P) (key : K) :
    (f.post place key).Sound where
  entry_lt := (h.push place none).entry_lt
  waiting_lt key' n hwaiting := by
    simp only [Feed.post, Function.update_apply] at hwaiting
    split at hwaiting
    · cases hwaiting
      exact Nat.lt_succ_self _
    · exact (h.push place none).waiting_lt key' n hwaiting
  entries := (h.push place none).entries
  waits := by
    apply h.waits.update
    rintro key' - n hwaiting heq
    cases heq
    exact absurd (h.waiting_lt key' _ hwaiting) (lt_irrefl _)
  unlabelled key' n hwaiting := by
    simp only [Feed.post, Function.update_apply] at hwaiting
    split at hwaiting
    · cases hwaiting
      exact Function.update_self ..
    · exact (h.push place none).unlabelled key' n hwaiting
  known := (h.push place none).known

theorem Sound.clear {f : Feed P K I} (h : f.Sound) (keep : P → Bool) :
    (f.clear keep).Sound where
  entry_lt place n hentry := by
    simp only [Feed.clear] at hentry
    split at hentry
    · exact h.entry_lt place n hentry
    · cases hentry
  waiting_lt := h.waiting_lt
  entries := by
    apply h.entries.of_le
    intro place n hentry
    simp only [Feed.clear] at hentry
    split at hentry
    · exact hentry
    · cases hentry
  waits := h.waits
  unlabelled := h.unlabelled
  known place x hshown := by
    rw [shown_clear] at hshown
    split at hshown
    · exact h.known place x hshown
    · cases hshown

theorem Sound.grows [DecidableEq P] [DecidableEq K] [DecidableEq I]
    {f f' : Feed P K I} (h : f.Sound) (hgrows : f.Grows f') :
    f'.Sound := by
  cases hgrows with
  | same => exact h
  | push place x _ _ => exact h.push place x
  | post place key _ => exact h.post place key
  | clear keep => exact h.clear keep
  | reset => exact sound_empty f.label f.next

theorem Sound.settle [DecidableEq K] [DecidableEq I] {f : Feed P K I}
    (h : f.Sound) {key : K} {n : ℕ}
    (hwaiting : f.waiting key = some n) (x : Option I) :
    (f.settle key n x).Sound where
  entry_lt := h.entry_lt
  waiting_lt key' m hwaiting' := by
    simp only [Feed.settle, Function.update_apply] at hwaiting'
    split at hwaiting'
    · cases hwaiting'
    · exact h.waiting_lt key' m hwaiting'
  entries := h.entries
  waits := h.waits.erase key
  unlabelled key' m hwaiting' := by
    simp only [Feed.settle, Function.update_apply] at hwaiting' ⊢
    split at hwaiting'
    · cases hwaiting'
    · next hkey =>
        rw [if_neg]
        · exact h.unlabelled key' m hwaiting'
        · rintro rfl
          exact hkey (h.waits key' key m hwaiting' hwaiting)
  known place y hshown := by
    rw [shown_settle] at hshown
    rw [Feed.settle, Finset.mem_union]
    split at hshown
    · exact .inr (Option.mem_toFinset.mpr hshown)
    · exact .inl (h.known place y hshown)

/-! ## When every label is shown once -/

theorem Once.grows [DecidableEq P] [DecidableEq K] [DecidableEq I]
    {f f' : Feed P K I} (h : f.Once) (hsound : f.Sound)
    (hgrows : f.Grows f') : f'.Once := by
  have hpush : ∀ place x, Disjoint x.toFinset f.seen →
      OneToOne (f.push place x).shown := by
    intro place x hnew
    rw [hsound.shown_push]
    apply h.update
    rintro place' - y hshown rfl
    exact Finset.disjoint_left.mp hnew (Option.mem_toFinset.mpr rfl)
      (hsound.known place' y hshown)
  cases hgrows with
  | same => exact h
  | push place x _ hnew => exact hpush place x hnew
  | post place key _ => exact hpush place none (Finset.disjoint_empty_left _)
  | clear keep =>
      apply h.of_le
      intro place x hshown
      rw [shown_clear] at hshown
      split at hshown
      · exact hshown
      · cases hshown
  | reset => exact oneToOne_none

/-- The entry that is settled is still there, and its label is shown already. -/
def Overtaken (f : Feed P K I) (n : ℕ) (x : Option I) : Prop :=
  ∃ place place' y, f.entry place = some n ∧ x = some y ∧ f.shown place' = some y

theorem Sound.once_settle_iff [DecidableEq K] [DecidableEq I]
    {f : Feed P K I} (h : f.Sound) (honce : f.Once) {key : K}
    {n : ℕ} (hwaiting : f.waiting key = some n) (x : Option I) :
    (f.settle key n x).Once ↔ ¬f.Overtaken n x := by
  constructor
  · rintro hafter ⟨place, place', y, hentry, rfl, hshown⟩
    have hlabel : (f.settle key n (some y)).shown place = some y := by
      rw [shown_settle, if_pos hentry]
    have hother : f.entry place' ≠ some n := by
      intro hentry'
      rw [shown, hentry', Option.bind_some, h.unlabelled key n hwaiting] at hshown
      cases hshown
    have hlabel' : (f.settle key n (some y)).shown place' = some y := by
      rw [shown_settle, if_neg hother]
      exact hshown
    rw [hafter place place' y hlabel hlabel'] at hentry
    exact hother hentry
  · intro hovertaken
    apply h.entries.relabel honce
    rintro place hentry place' y hshown rfl
    exact hovertaken ⟨place, place', y, hentry, rfl, hshown⟩

end Feed
