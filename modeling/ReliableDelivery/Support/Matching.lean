import Mathlib.Data.List.Basic
import Mathlib.Logic.Function.Basic

/-!
# Matchings between the places of a list

A list that only grows records what happened, in order.  `At f t i b` says that
place `i` of the list is of the kind that `f` recognizes, with value `b`.  A
matching assigns to every place of a kind another place, to no two of them the
same one, and relates the two; it is carried along while the list grows.
-/

namespace Matching

variable {α β γ : Type}

/-- Place `i` of the list has the value `b`. -/
def At (f : α → Option β) (t : List α) (i : ℕ) (b : β) : Prop :=
  t[i]?.bind f = some b

theorem At.lt {f : α → Option β} {t : List α} {i : ℕ} {b : β}
    (h : At f t i b) : i < t.length := by
  by_contra hle
  rw [At, List.getElem?_eq_none (Nat.le_of_not_lt hle)] at h
  cases h

theorem At.unique {f : α → Option β} {t : List α} {i : ℕ} {b b' : β}
    (h : At f t i b) (h' : At f t i b') : b = b' :=
  Option.some.inj (h.symm.trans h')

theorem At.append {f : α → Option β} {t : List α} {i : ℕ} {b : β}
    (h : At f t i b) (l : List α) : At f (t ++ l) i b := by
  rw [At, List.getElem?_append_left h.lt]
  exact h

theorem at_append {f : α → Option β} {t l : List α} {i : ℕ} {b : β} :
    At f (t ++ l) i b ↔
      At f t i b ∨ t.length ≤ i ∧ At f l (i - t.length) b := by
  by_cases hi : i < t.length
  · constructor
    · intro h
      rw [At, List.getElem?_append_left hi] at h
      exact .inl h
    · rintro (h | ⟨hle, -⟩)
      · exact h.append l
      · omega
  · have hle : t.length ≤ i := Nat.le_of_not_lt hi
    constructor
    · intro h
      rw [At, List.getElem?_append_right hle] at h
      exact .inr ⟨hle, h⟩
    · rintro (h | ⟨-, h⟩)
      · exact absurd h.lt hi
      · rw [At, List.getElem?_append_right hle]
        exact h

theorem at_concat {f : α → Option β} {t : List α} {x : α} {i : ℕ} {b : β} :
    At f (t ++ [x]) i b ↔ At f t i b ∨ i = t.length ∧ f x = some b := by
  rw [at_append]
  refine or_congr_right ?_
  constructor
  · rintro ⟨hle, h⟩
    have hlt : i - t.length < [x].length := h.lt
    have hi : i = t.length := by
      rw [List.length_singleton] at hlt
      omega
    subst hi
    rw [At, Nat.sub_self] at h
    exact ⟨rfl, h⟩
  · rintro ⟨rfl, h⟩
    refine ⟨Nat.le_refl _, ?_⟩
    rw [At, Nat.sub_self]
    exact h

theorem At.exists_mem {f : α → Option β} {t : List α} {i : ℕ} {b : β}
    (h : At f t i b) : ∃ x ∈ t, f x = some b := by
  rw [At, Option.bind_eq_some_iff] at h
  obtain ⟨x, hx, hb⟩ := h
  exact ⟨x, List.mem_of_getElem? hx, hb⟩

/-- Places of one kind are not those of another in what is appended. -/
theorem at_append_none {f : α → Option β} {t l : List α} {i : ℕ} {b : β}
    (hl : ∀ x ∈ l, f x = none) : At f (t ++ l) i b ↔ At f t i b := by
  rw [at_append]
  constructor
  · rintro (h | ⟨-, h⟩)
    · exact h
    · obtain ⟨x, hx, hb⟩ := h.exists_mem
      rw [hl x hx] at hb
      cases hb
  · exact .inl

/-- Every place of the kind `f` has a place of its own, related to it by `r`. -/
structure Matched (f : α → Option β) (r : List α → ℕ → β → ℕ → Prop)
    (t : List α) (origin : ℕ → ℕ) : Prop where
  injective : ∀ i j b b', At f t i b → At f t j b' → origin i = origin j → i = j
  related : ∀ i b, At f t i b → r t i b (origin i)

/-- No place of the kind `f` has this origin. -/
def Unused (f : α → Option β) (t : List α) (origin : ℕ → ℕ) (p : ℕ) : Prop :=
  ∀ i b, At f t i b → origin i ≠ p

section Growth

variable {f : α → Option β} {r : List α → ℕ → β → ℕ → Prop} {t : List α}
  {origin : ℕ → ℕ} {p : ℕ}

theorem matched_nil (f : α → Option β) (r : List α → ℕ → β → ℕ → Prop)
    (origin : ℕ → ℕ) : Matched f r [] origin :=
  ⟨fun i _ _ _ h => absurd h.lt (Nat.not_lt_zero i),
    fun i _ h => absurd h.lt (Nat.not_lt_zero i)⟩

theorem Matched.append (h : Matched f r t origin)
    (hr : ∀ t l i b p, r t i b p → r (t ++ l) i b p) {l : List α}
    (hl : ∀ x ∈ l, f x = none) : Matched f r (t ++ l) origin := by
  constructor
  · intro i j b b' hi hj
    exact h.injective i j b b' ((at_append_none hl).mp hi)
      ((at_append_none hl).mp hj)
  · intro i b hi
    exact hr _ _ _ _ _ (h.related i b ((at_append_none hl).mp hi))

theorem Unused.append (h : Unused f t origin p) {l : List α}
    (hl : ∀ x ∈ l, f x = none) : Unused f (t ++ l) origin p :=
  fun i b hi => h i b ((at_append_none hl).mp hi)

/-- A new place of the kind takes an origin that is not used yet. -/
theorem Matched.concat (h : Matched f r t origin)
    (hr : ∀ t l i b p, r t i b p → r (t ++ l) i b p)
    (hunused : Unused f t origin p) {x : α} {b : β} (hx : f x = some b)
    (hp : r (t ++ [x]) t.length b p) :
    Matched f r (t ++ [x]) (Function.update origin t.length p) := by
  have hold : ∀ i b, At f t i b →
      Function.update origin t.length p i = origin i :=
    fun i b hi => Function.update_of_ne (Nat.ne_of_lt hi.lt) ..
  constructor
  · intro i j b b' hi hj heq
    rcases at_concat.mp hi with hi | ⟨rfl, -⟩
    · rcases at_concat.mp hj with hj | ⟨rfl, -⟩
      · rw [hold i b hi, hold j b' hj] at heq
        exact h.injective i j b b' hi hj heq
      · rw [hold i b hi, Function.update_self] at heq
        exact absurd heq (hunused i b hi)
    · rcases at_concat.mp hj with hj | ⟨rfl, -⟩
      · rw [hold j b' hj, Function.update_self] at heq
        exact absurd heq.symm (hunused j b' hj)
      · rfl
  · intro i b' hi
    rcases at_concat.mp hi with hi | ⟨rfl, hb⟩
    · rw [hold i b' hi]
      exact hr _ _ _ _ _ (h.related i b' hi)
    · rw [Function.update_self, ← Option.some.inj (hx.symm.trans hb)]
      exact hp

theorem Unused.concat {q : ℕ} (h : Unused f t origin p) (hne : q ≠ p) (x : α) :
    Unused f (t ++ [x]) (Function.update origin t.length q) p := by
  intro i b hi
  rcases at_concat.mp hi with hi | ⟨rfl, -⟩
  · rw [Function.update_of_ne (Nat.ne_of_lt hi.lt)]
    exact h i b hi
  · rw [Function.update_self]
    exact hne

/-- If the origins come before the places, no origin is the last place. -/
theorem Matched.unused_last (h : Matched f r t origin)
    (hr : ∀ t i b p, r t i b p → p < i) (hp : t.length ≤ p + 1) :
    Unused f t origin p := by
  intro i b hi heq
  have hbefore := hr _ _ _ _ (h.related i b hi)
  have hlt := hi.lt
  omega

end Growth

end Matching
