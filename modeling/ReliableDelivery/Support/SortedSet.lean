import Mathlib.Data.List.Sort
import Mathlib.Data.Prod.Lex
import Mathlib.Tactic

/-!
# Scored sets

A scored set holds each member at most once, together with a score, and lists
its entries by increasing score; members of equal score are listed in member
order.  The listing is kept in that order, so that the range queries are plain
list operations.  The score function determines the set.
-/

/-- Entries ordered by score first and by member on equal scores. -/
structure SortedSet (σ μ : Type) [LinearOrder σ] [LinearOrder μ] where
  entries : List (σ × μ)
  sorted : entries.Pairwise fun a b => toLex a ≤ toLex b
  membersNodup : (entries.map Prod.snd).Nodup

namespace SortedSet

variable {σ μ : Type} [LinearOrder σ] [LinearOrder μ]

def empty : SortedSet σ μ where
  entries := []
  sorted := List.Pairwise.nil
  membersNodup := List.nodup_nil

/-- The score of a member, if it is present. -/
def score (z : SortedSet σ μ) (m : μ) : Option σ :=
  (z.entries.find? fun e => e.2 = m).map Prod.fst

/-- Remove a member. -/
def erase (z : SortedSet σ μ) (m : μ) : SortedSet σ μ where
  entries := z.entries.filter fun e => e.2 ≠ m
  sorted := z.sorted.filter _
  membersNodup := z.membersNodup.sublist (List.filter_sublist.map Prod.snd)

theorem orderedInsert_sorted (e : σ × μ) {l : List (σ × μ)}
    (hl : l.Pairwise fun a b => toLex a ≤ toLex b) :
    (l.orderedInsert (fun a b => toLex a ≤ toLex b) e).Pairwise
      fun a b => toLex a ≤ toLex b := by
  have : Std.Total fun a b : σ × μ => toLex a ≤ toLex b :=
    ⟨fun a b => le_total (toLex a) (toLex b)⟩
  have : IsTrans (σ × μ) fun a b => toLex a ≤ toLex b :=
    ⟨fun a b c hab hbc => le_trans hab hbc⟩
  exact hl.orderedInsert e l

/-- Add a member with a score, replacing an older score. -/
def insert (z : SortedSet σ μ) (s : σ) (m : μ) : SortedSet σ μ where
  entries := (z.erase m).entries.orderedInsert
    (fun a b => toLex a ≤ toLex b) (s, m)
  sorted := orderedInsert_sorted (s, m) (z.erase m).sorted
  membersNodup := by
    have hperm := List.perm_orderedInsert
      (fun a b : σ × μ => toLex a ≤ toLex b) (s, m) (z.erase m).entries
    rw [(hperm.map Prod.snd).nodup_iff, List.map_cons, List.nodup_cons]
    refine ⟨?_, (z.erase m).membersNodup⟩
    simp [erase]

/-- An entry is listed exactly when its score is the recorded one. -/
theorem mem_entries_iff {z : SortedSet σ μ} {s : σ} {m : μ} :
    (s, m) ∈ z.entries ↔ z.score m = some s := by
  obtain ⟨l, hsorted, hnodup⟩ := z
  simp only [score]
  clear hsorted
  induction l with
  | nil => simp
  | cons e l ih =>
      obtain ⟨s', m'⟩ := e
      rw [List.map_cons, List.nodup_cons] at hnodup
      obtain ⟨hnew, hnodup⟩ := hnodup
      rw [List.find?_cons, List.mem_cons]
      by_cases hm : m' = m
      · subst hm
        simp only [decide_true, Option.map_some, Option.some.injEq]
        constructor
        · rintro (h | h)
          · exact (congrArg Prod.fst h).symm
          · exact absurd (List.mem_map_of_mem (f := Prod.snd) h) hnew
        · rintro rfl
          exact Or.inl rfl
      · simp only [hm, decide_false]
        rw [← ih hnodup]
        constructor
        · rintro (h | h)
          · exact absurd (congrArg Prod.snd h).symm hm
          · exact h
        · exact Or.inr

@[simp] theorem score_empty (m : μ) : (empty : SortedSet σ μ).score m = none :=
  rfl

/-- The recorded score is the unique score listed for the member. -/
theorem score_eq_of_mem_iff {z : SortedSet σ μ} {m : μ} {o : Option σ}
    (h : ∀ s, (s, m) ∈ z.entries ↔ o = some s) : z.score m = o := by
  apply Option.ext
  intro s
  rw [← mem_entries_iff, h s]

@[simp] theorem score_erase (z : SortedSet σ μ) (m m' : μ)
    [Decidable (m' = m)] :
    (z.erase m).score m' = if m' = m then none else z.score m' := by
  apply score_eq_of_mem_iff
  intro s
  by_cases hm : m' = m
  · simp [erase, hm]
  · simp [erase, hm, mem_entries_iff]

@[simp] theorem score_insert (z : SortedSet σ μ) (s : σ) (m m' : μ)
    [Decidable (m' = m)] :
    (z.insert s m).score m' = if m' = m then some s else z.score m' := by
  apply score_eq_of_mem_iff
  intro s'
  simp only [insert, List.mem_orderedInsert, mem_entries_iff, score_erase,
    Prod.mk.injEq]
  by_cases hm : m' = m
  · simp [hm, eq_comm]
  · simp [hm]

end SortedSet
