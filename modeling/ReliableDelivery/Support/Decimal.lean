import Mathlib.Data.List.Basic
import Mathlib.Data.List.TakeWhile
import Mathlib.Tactic

/-!
# Byte strings and decimal numerals

A C++ `std::string` and a Redis string are arbitrary byte sequences, so this
module fixes `Bytes` as the common carrier.  Numbers cross the boundary as
decimal text.  The module renders natural numbers, reads runs of digits back,
and proves the separation facts on which textual keys rest: a numeral contains
only digits, so the first non-digit byte delimits it.
-/

namespace Decimal

/-- A byte string. -/
abbrev Bytes := List UInt8

/-- The bytes of a string literal. -/
def literal (s : String) : Bytes :=
  s.toUTF8.data.toList

/-- The ASCII digits `0`, ..., `9`. -/
def isDigit (b : UInt8) : Bool :=
  48 ≤ b && b ≤ 57

/-- Plain decimal rendering of a natural number. -/
def render (n : ℕ) : Bytes :=
  (Nat.toDigits 10 n).map fun c => UInt8.ofNat c.toNat

/-- The value of a run of digits, continuing from an accumulator. -/
def value (acc : ℕ) (digits : Bytes) : ℕ :=
  digits.foldl (fun n b => 10 * n + (b.toNat - 48)) acc

/-- The byte of one decimal digit. -/
def digit (d : ℕ) : UInt8 :=
  UInt8.ofNat (48 + d)

theorem digitChar_toNat {d : ℕ} (hd : d < 10) :
    UInt8.ofNat (Nat.digitChar d).toNat = digit d := by
  interval_cases d <;> rfl

theorem digit_toNat {d : ℕ} (hd : d < 10) : (digit d).toNat = 48 + d := by
  interval_cases d <;> rfl

theorem isDigit_digit {d : ℕ} (hd : d < 10) : isDigit (digit d) = true := by
  interval_cases d <;> rfl

theorem render_of_lt {n : ℕ} (hn : n < 10) : render n = [digit n] := by
  rw [render, Nat.toDigits_of_lt_base hn]
  simp only [List.map_cons, List.map_nil, digitChar_toNat hn]

theorem render_of_le {n : ℕ} (hn : 10 ≤ n) :
    render n = render (n / 10) ++ [digit (n % 10)] := by
  have hlast : n % 10 < 10 := Nat.mod_lt n (by decide)
  rw [render, Nat.toDigits_of_base_le (by decide) hn, List.map_append]
  simp only [List.map_cons, List.map_nil, digitChar_toNat hlast]
  rfl

theorem render_ne_nil (n : ℕ) : render n ≠ [] := by
  simp [render, Nat.toDigits_ne_nil]

/-- Every byte of a numeral is a digit. -/
theorem isDigit_of_mem_render {n : ℕ} :
    ∀ b ∈ render n, isDigit b = true := by
  induction n using Nat.strong_induction_on with
  | h n ih =>
      intro b hb
      rcases Nat.lt_or_ge n 10 with hn | hn
      · rw [render_of_lt hn, List.mem_singleton] at hb
        rw [hb]
        exact isDigit_digit hn
      · rw [render_of_le hn, List.mem_append, List.mem_singleton] at hb
        rcases hb with hb | hb
        · exact ih (n / 10) (by omega) b hb
        · rw [hb]
          exact isDigit_digit (Nat.mod_lt n (by decide))

theorem value_append (acc : ℕ) (xs ys : Bytes) :
    value acc (xs ++ ys) = value (value acc xs) ys :=
  List.foldl_append

/-- Reading a numeral back gives the number it renders. -/
@[simp] theorem value_render (n : ℕ) : value 0 (render n) = n := by
  induction n using Nat.strong_induction_on with
  | h n ih =>
      rcases Nat.lt_or_ge n 10 with hn | hn
      · rw [render_of_lt hn]
        simp only [value, List.foldl_cons, List.foldl_nil, digit_toNat hn]
        omega
      · have hlast : n % 10 < 10 := Nat.mod_lt n (by decide)
        rw [render_of_le hn, value_append, ih (n / 10) (by omega)]
        simp only [value, List.foldl_cons, List.foldl_nil, digit_toNat hlast]
        omega

theorem render_injective : Function.Injective render := by
  intro m n h
  rw [← value_render m, ← value_render n, h]

@[simp] theorem render_inj {m n : ℕ} : render m = render n ↔ m = n :=
  render_injective.eq_iff

/-- The longest run of digits at the head of a numeral followed by a
non-digit is the numeral itself. -/
theorem takeWhile_render_append {n : ℕ} {rest : Bytes}
    (hrest : ∀ b ∈ rest.head?, isDigit b = false) :
    (render n ++ rest).takeWhile isDigit = render n := by
  rw [List.takeWhile_append_of_pos isDigit_of_mem_render]
  cases rest with
  | nil => simp
  | cons b rest => simp [hrest b (by simp)]

theorem dropWhile_render_append {n : ℕ} {rest : Bytes}
    (hrest : ∀ b ∈ rest.head?, isDigit b = false) :
    (render n ++ rest).dropWhile isDigit = rest := by
  rw [List.dropWhile_append_of_pos isDigit_of_mem_render]
  cases rest with
  | nil => simp
  | cons b rest => simp [hrest b (by simp)]

@[simp] theorem takeWhile_render (n : ℕ) :
    (render n).takeWhile isDigit = render n := by
  simpa using @takeWhile_render_append n [] (by simp)

@[simp] theorem dropWhile_render (n : ℕ) :
    (render n).dropWhile isDigit = [] := by
  simpa using @dropWhile_render_append n [] (by simp)

/-- A numeral, a separator that is not a digit, and arbitrary text determine
both the number and the text. -/
theorem render_append_cons_inj {m n : ℕ} {sep : UInt8} {xs ys : Bytes}
    (hsep : isDigit sep = false) :
    render m ++ sep :: xs = render n ++ sep :: ys ↔ m = n ∧ xs = ys := by
  have hhead : ∀ zs : Bytes, ∀ b ∈ (sep :: zs).head?, isDigit b = false := by
    intro zs b hb
    simp only [List.head?_cons, Option.mem_some_iff] at hb
    rw [← hb]
    exact hsep
  constructor
  · intro h
    have htake := congrArg (List.takeWhile isDigit) h
    rw [takeWhile_render_append (hhead xs),
      takeWhile_render_append (hhead ys)] at htake
    have hmn : m = n := render_injective htake
    subst hmn
    exact ⟨rfl, by simpa using List.append_cancel_left h⟩
  · rintro ⟨rfl, rfl⟩
    rfl

theorem head_render_isDigit (n : ℕ) :
    ∃ b rest, render n = b :: rest ∧ isDigit b = true := by
  cases h : render n with
  | nil => exact absurd h (render_ne_nil n)
  | cons b rest =>
      have hmem : b ∈ render n := by simp [h]
      exact ⟨b, rest, rfl, isDigit_of_mem_render b hmem⟩

end Decimal
