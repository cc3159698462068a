import Mathlib.Data.Multiset.AddSub
import Mathlib.Data.Set.Card

/-!
# Items on loan

A collection lends its items.  A holder has at most one item, an item can be passed
from one holder to another, and the collection counts what it has lent.  Once it is
closed it lends nothing more, and what comes back is not offered again.
-/

/-- Who holds what, what can still be lent, and how many loans there are. -/
structure Loans (κ ι : Type) where
  holds : κ → Option ι
  free : Multiset ι
  lent : ℕ := 0
  closed : Bool := false

namespace Loans

variable {κ ι : Type}

/-- Those who hold an item. -/
def holders (L : Loans κ ι) : Set κ :=
  {a | L.holds a ≠ none}

theorem mem_holders {L : Loans κ ι} {a : κ} :
    a ∈ L.holders ↔ ∃ i, L.holds a = some i :=
  Option.ne_none_iff_exists'

variable [DecidableEq κ]

/-- Holder `a` has `item` from now on. -/
def setHolder (L : Loans κ ι) (a : κ) (item : Option ι) : Loans κ ι :=
  { L with holds := Function.update L.holds a item }

/-- What can happen to the loans. -/
inductive Step (L : Loans κ ι) : Loans κ ι → Prop where
  | other : Step L L
  | lend (a : κ) (i : ι) (rest : Multiset ι) (hopen : L.closed = false)
      (hfree : L.free = i ::ₘ rest) (hnew : L.holds a = none) :
      Step L
        { L.setHolder a (some i) with free := rest, lent := L.lent + 1 }
  | giveBack (a : κ) (i : ι) (hholds : L.holds a = some i) :
      Step L
        { L.setHolder a none with
          free := if L.closed then L.free else i ::ₘ L.free
          lent := L.lent - 1 }
  | pass (a b : κ) (i : ι) (hholds : L.holds a = some i)
      (hnew : L.holds b = none) :
      Step L ((L.setHolder a none).setHolder b (some i))
  | close : Step L { L with closed := true }

/-- Every item of `items` is offered once or held once while the collection is open,
and the number of loans is right. -/
structure Sound (items : Set ι) (L : Loans κ ι) : Prop where
  exclusive : ∀ a b i, L.holds a = some i → L.holds b = some i → a = b
  finite : L.holders.Finite
  counted : L.lent = L.holders.ncard
  nodup : L.free.Nodup
  separate : ∀ a i, L.holds a = some i → i ∉ L.free
  known : ∀ i, i ∈ L.free ∨ (∃ a, L.holds a = some i) → i ∈ items
  complete : L.closed = false →
    ∀ i ∈ items, i ∈ L.free ∨ ∃ a, L.holds a = some i

omit [DecidableEq κ] in
/-- Nothing has been lent yet. -/
theorem sound_init {free : Multiset ι} (h : free.Nodup) :
    Sound {i | i ∈ free} ({ holds := fun _ : κ => none, free } : Loans κ ι) where
  exclusive := by
    intro a b i ha
    cases ha
  finite := by simp [holders]
  counted := by simp [holders]
  nodup := h
  separate := by
    intro a i ha
    cases ha
  known := by
    rintro i (hi | ⟨a, ha⟩)
    · exact hi
    · cases ha
  complete := fun _ i hi => .inl hi

namespace Sound

variable {items : Set ι} {L : Loans κ ι} {a b : κ} {i : ι}
  {rest : Multiset ι}

theorem lend (h : L.Sound items) (hopen : L.closed = false)
    (hfree : L.free = i ::ₘ rest) (hnew : L.holds a = none) :
    Sound items
      { L.setHolder a (some i) with free := rest, lent := L.lent + 1 } := by
  obtain ⟨hirest, hrest⟩ := Multiset.nodup_cons.mp (hfree ▸ h.nodup)
  have hholds : ∀ x j, (L.setHolder a (some i)).holds x = some j ↔
      x = a ∧ j = i ∨ L.holds x = some j := by
    intro x j
    by_cases hx : x = a
    · subst hx
      simp [setHolder, hnew, eq_comm]
    · simp [setHolder, hx]
  have hunheld : ∀ x, L.holds x ≠ some i := by
    intro x hx
    exact h.separate x i hx (hfree ▸ Multiset.mem_cons_self i rest)
  have hholders : (L.setHolder a (some i)).holders = insert a L.holders := by
    ext x
    simp only [mem_holders, hholds, Set.mem_insert_iff]
    constructor
    · rintro ⟨j, ⟨rfl, -⟩ | hj⟩
      · exact .inl rfl
      · exact .inr ⟨j, hj⟩
    · rintro (rfl | ⟨j, hj⟩)
      · exact ⟨i, .inl ⟨rfl, rfl⟩⟩
      · exact ⟨j, .inr hj⟩
  have haholders : a ∉ L.holders := by simp [holders, hnew]
  constructor
  · intro x y j hx hy
    rcases (hholds x j).mp hx with ⟨rfl, rfl⟩ | hold
    · rcases (hholds y j).mp hy with ⟨rfl, -⟩ | hold
      · rfl
      · exact absurd hold (hunheld y)
    · rcases (hholds y j).mp hy with ⟨-, rfl⟩ | hold'
      · exact absurd hold (hunheld x)
      · exact h.exclusive x y j hold hold'
  · exact hholders ▸ h.finite.insert a
  · exact hholders ▸ h.counted ▸
      (Set.ncard_insert_of_notMem haholders h.finite).symm
  · exact hrest
  · intro x j hx
    rcases (hholds x j).mp hx with ⟨-, rfl⟩ | hold
    · exact hirest
    · exact fun hj => h.separate x j hold (hfree ▸ Multiset.mem_cons_of_mem hj)
  · rintro j (hj | ⟨x, hx⟩)
    · exact h.known j (.inl (hfree ▸ Multiset.mem_cons_of_mem hj))
    · rcases (hholds x j).mp hx with ⟨-, rfl⟩ | hold
      · exact h.known j (.inl (hfree ▸ Multiset.mem_cons_self j rest))
      · exact h.known j (.inr ⟨x, hold⟩)
  · intro _ j hj
    rcases h.complete hopen j hj with hmem | ⟨x, hx⟩
    · rcases Multiset.mem_cons.mp (hfree ▸ hmem) with rfl | hmem
      · exact .inr ⟨a, (hholds a j).mpr (.inl ⟨rfl, rfl⟩)⟩
      · exact .inl hmem
    · exact .inr ⟨x, (hholds x j).mpr (.inr hx)⟩

theorem giveBack (h : L.Sound items) (hholds : L.holds a = some i) :
    Sound items
      { L.setHolder a none with
        free := if L.closed then L.free else i ::ₘ L.free
        lent := L.lent - 1 } := by
  have hrest : ∀ x j, (L.setHolder a none).holds x = some j ↔
      x ≠ a ∧ L.holds x = some j := by
    intro x j
    by_cases hx : x = a
    · simp [setHolder, hx]
    · simp [setHolder, hx]
  have hholders : (L.setHolder a none).holders = L.holders \ {a} := by
    ext x
    simp only [mem_holders, hrest, Set.mem_sdiff, Set.mem_singleton_iff]
    constructor
    · rintro ⟨j, hx, hj⟩
      exact ⟨⟨j, hj⟩, hx⟩
    · rintro ⟨⟨j, hj⟩, hx⟩
      exact ⟨j, hx, hj⟩
  have haholders : a ∈ L.holders := mem_holders.mpr ⟨i, hholds⟩
  have hmemFree : ∀ j, j ∈ (if L.closed then L.free else i ::ₘ L.free) →
      j = i ∨ j ∈ L.free := by
    intro j hj
    split at hj
    · exact .inr hj
    · exact Multiset.mem_cons.mp hj
  constructor
  · intro x y j hx hy
    exact h.exclusive x y j ((hrest x j).mp hx).2 ((hrest y j).mp hy).2
  · exact hholders ▸ h.finite.sdiff
  · exact hholders ▸ h.counted ▸
      (Set.ncard_sdiff_singleton_of_mem haholders).symm
  · show Multiset.Nodup (if L.closed then L.free else i ::ₘ L.free)
    split
    · exact h.nodup
    · exact Multiset.nodup_cons.mpr ⟨h.separate a i hholds, h.nodup⟩
  · intro x j hx hj
    obtain ⟨hne, hold⟩ := (hrest x j).mp hx
    rcases hmemFree j hj with rfl | hmem
    · exact hne (h.exclusive x a j hold hholds)
    · exact h.separate x j hold hmem
  · rintro j (hj | ⟨x, hx⟩)
    · rcases hmemFree j hj with rfl | hj
      · exact h.known j (.inr ⟨a, hholds⟩)
      · exact h.known j (.inl hj)
    · exact h.known j (.inr ⟨x, ((hrest x j).mp hx).2⟩)
  · intro hopen j hj
    rw [show L.closed = false from hopen]
    rcases h.complete hopen j hj with hmem | ⟨x, hx⟩
    · exact .inl (Multiset.mem_cons_of_mem hmem)
    · by_cases hxa : x = a
      · rw [hxa, hholds, Option.some.injEq] at hx
        exact .inl (hx ▸ Multiset.mem_cons_self i L.free)
      · exact .inr ⟨x, (hrest x j).mpr ⟨hxa, hx⟩⟩

theorem pass (h : L.Sound items) (hholds : L.holds a = some i)
    (hnew : L.holds b = none) :
    Sound items ((L.setHolder a none).setHolder b (some i)) := by
  have hne : a ≠ b := by
    rintro rfl
    rw [hholds] at hnew
    cases hnew
  have hafter : ∀ x j,
      ((L.setHolder a none).setHolder b (some i)).holds x = some j ↔
        x = b ∧ j = i ∨ x ≠ a ∧ L.holds x = some j := by
    intro x j
    by_cases hx : x = b
    · subst hx
      simp [setHolder, hnew, eq_comm]
    · by_cases hxa : x = a
      · subst hxa
        simp [setHolder, hx]
      · simp [setHolder, hx, hxa]
  have hheld : ∀ j, (∃ x, L.holds x = some j) ↔
      ∃ x, ((L.setHolder a none).setHolder b (some i)).holds x = some j := by
    intro j
    constructor
    · rintro ⟨x, hx⟩
      by_cases hxa : x = a
      · rw [hxa, hholds, Option.some.injEq] at hx
        exact ⟨b, (hafter b j).mpr (.inl ⟨rfl, hx.symm⟩)⟩
      · exact ⟨x, (hafter x j).mpr (.inr ⟨hxa, hx⟩)⟩
    · rintro ⟨x, hx⟩
      rcases (hafter x j).mp hx with ⟨-, rfl⟩ | ⟨-, hx⟩
      · exact ⟨a, hholds⟩
      · exact ⟨x, hx⟩
  have hholders : ((L.setHolder a none).setHolder b (some i)).holders =
      insert b (L.holders \ {a}) := by
    ext x
    simp only [mem_holders, hafter, Set.mem_insert_iff, Set.mem_sdiff,
      Set.mem_singleton_iff]
    constructor
    · rintro ⟨j, ⟨rfl, -⟩ | ⟨hx, hj⟩⟩
      · exact .inl rfl
      · exact .inr ⟨⟨j, hj⟩, hx⟩
    · rintro (rfl | ⟨⟨j, hj⟩, hx⟩)
      · exact ⟨i, .inl ⟨rfl, rfl⟩⟩
      · exact ⟨j, .inr ⟨hx, hj⟩⟩
  have haholders : a ∈ L.holders := mem_holders.mpr ⟨i, hholds⟩
  have hbholders : b ∉ L.holders \ {a} := by simp [holders, hnew]
  constructor
  · intro x y j hx hy
    rcases (hafter x j).mp hx with ⟨rfl, rfl⟩ | ⟨hxa, hold⟩
    · rcases (hafter y j).mp hy with ⟨rfl, -⟩ | ⟨hya, hold⟩
      · rfl
      · exact absurd (h.exclusive y a j hold hholds) hya
    · rcases (hafter y j).mp hy with ⟨-, rfl⟩ | ⟨hya, hold'⟩
      · exact absurd (h.exclusive x a j hold hholds) hxa
      · exact h.exclusive x y j hold hold'
  · exact hholders ▸ h.finite.sdiff.insert b
  · rw [hholders, Set.ncard_insert_of_notMem hbholders h.finite.sdiff,
      Set.ncard_sdiff_singleton_add_one haholders h.finite]
    exact h.counted
  · exact h.nodup
  · intro x j hx
    obtain ⟨y, hy⟩ := (hheld j).mpr ⟨x, hx⟩
    exact h.separate y j hy
  · intro j hj
    exact h.known j (hj.imp_right (hheld j).mpr)
  · intro hopen j hj
    exact (h.complete hopen j hj).imp_right (hheld j).mp

omit [DecidableEq κ] in
theorem close (h : L.Sound items) :
    Sound items { L with closed := true } where
  exclusive := h.exclusive
  finite := h.finite
  counted := h.counted
  nodup := h.nodup
  separate := h.separate
  known := h.known
  complete := by
    intro hopen
    cases hopen

/-- Every step keeps the loans in order. -/
theorem step {L' : Loans κ ι} (h : L.Sound items) (hstep : L.Step L') :
    L'.Sound items := by
  cases hstep with
  | other => exact h
  | lend a i rest hopen hfree hnew => exact h.lend hopen hfree hnew
  | giveBack a i hholds => exact h.giveBack hholds
  | pass a b i hholds hnew => exact h.pass hholds hnew
  | close => exact h.close

end Sound

end Loans
