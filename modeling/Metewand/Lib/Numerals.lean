import Mathlib.Algebra.Order.Ring.Int
import Mathlib.Data.List.Lex
import Mathlib.Data.String.Basic

/-!
# Numerals of a fixed width

`numeral width n` are the last `width` decimal digits of `n`.  It is what a number padded with
zeros reads (`padded_eq_numeral`), and numerals of one width are ordered as texts the way their
numbers are (`numeral_lt`).
-/

namespace Metewand.Lib

/-! ## Texts of one length -/

section Texts

variable {α : Type} [LinearOrder α]

/-- Texts that start with parts of one length compare by these parts first. -/
theorem append_lt_append {a b : List α} (same : a.length = b.length) (x y : List α) :
    a ++ x < b ++ y ↔ a < b ∨ a = b ∧ x < y := by
  induction a generalizing b with
  | nil =>
      obtain rfl := List.length_eq_zero_iff.mp same.symm
      simp
  | cons c a ih =>
      cases b with
      | nil => cases same
      | cons d b =>
          have rest := ih (Nat.succ.inj same)
          simp only [List.cons_append, List.cons_lt_cons_iff, rest, List.cons.injEq]
          constructor
          · rintro (less | ⟨rfl, less | ⟨rfl, less⟩⟩)
            · exact .inl (.inl less)
            · exact .inl (.inr ⟨rfl, less⟩)
            · exact .inr ⟨⟨rfl, rfl⟩, less⟩
          · rintro ((less | ⟨rfl, less⟩) | ⟨⟨rfl, rfl⟩, less⟩)
            · exact .inl less
            · exact .inr ⟨rfl, .inl less⟩
            · exact .inr ⟨rfl, .inr ⟨rfl, less⟩⟩

end Texts

/-! ## Numerals -/

/-- The last `width` decimal digits. -/
def numeral : Nat → Nat → List Char
  | 0, _ => []
  | width + 1, n => numeral width (n / 10) ++ [Nat.digitChar (n % 10)]

/-- A number in decimal, with zeros before it up to `width` characters. -/
def padded (width n : Nat) : List Char := (Nat.toDigits 10 n).leftpad width '0'

@[simp] theorem length_numeral (width n : Nat) : (numeral width n).length = width := by
  induction width generalizing n with
  | zero => rfl
  | succ width ih => simp [numeral, ih]

theorem digitChar_lt {m n : Nat} (mDigit : m < 10) (nDigit : n < 10) :
    Nat.digitChar m < Nat.digitChar n ↔ m < n := by
  have left := Nat.toNat_digitChar_of_lt_ten mDigit
  have right := Nat.toNat_digitChar_of_lt_ten nDigit
  have order : Nat.digitChar m < Nat.digitChar n ↔ (Nat.digitChar m).toNat < (Nat.digitChar n).toNat :=
    Iff.rfl
  rw [order, left, right]
  omega

theorem numeral_lt {width m n : Nat} (mFits : m < 10 ^ width) (nFits : n < 10 ^ width) :
    numeral width m < numeral width n ↔ m < n := by
  induction width generalizing m n with
  | zero =>
      have : m = n := by omega
      subst this
      simp [numeral]
  | succ width ih =>
      rw [Nat.pow_succ] at mFits nFits
      have mTens : m / 10 < 10 ^ width := by omega
      have nTens : n / 10 < 10 ^ width := by omega
      have less := ih mTens nTens
      have greater := ih nTens mTens
      have same : numeral width (m / 10) = numeral width (n / 10) ↔ m / 10 = n / 10 := by
        constructor
        · intro equal
          rw [equal] at less greater
          have := mt less.mpr (List.lt_irrefl _)
          have := mt greater.mpr (List.lt_irrefl _)
          omega
        · intro equal
          rw [equal]
      have last := digitChar_lt (Nat.mod_lt m (by omega : 0 < 10)) (Nat.mod_lt n (by omega : 0 < 10))
      rw [numeral, numeral, append_lt_append (by simp), less, same, List.cons_lt_cons_iff, last]
      simp only [List.not_lt_nil, and_false, or_false]
      omega

theorem numeral_inj {width m n : Nat} (mFits : m < 10 ^ width) (nFits : n < 10 ^ width) :
    numeral width m = numeral width n ↔ m = n := by
  constructor
  · intro same
    have less := numeral_lt mFits nFits
    have greater := numeral_lt nFits mFits
    rw [same] at less greater
    have := mt less.mpr (List.lt_irrefl _)
    have := mt greater.mpr (List.lt_irrefl _)
    omega
  · intro same
    rw [same]

/-- Texts that start with numerals of one width compare by these numbers first. -/
theorem numeral_append_lt {width m n : Nat} (mFits : m < 10 ^ width) (nFits : n < 10 ^ width)
    (x y : List Char) : numeral width m ++ x < numeral width n ++ y ↔ m < n ∨ m = n ∧ x < y := by
  rw [append_lt_append (by simp), numeral_lt mFits nFits, numeral_inj mFits nFits]

theorem numeral_zero (width : Nat) : numeral width 0 = List.replicate width '0' := by
  induction width with
  | zero => rfl
  | succ width ih => rw [numeral, Nat.zero_div, ih, List.replicate_succ']; rfl

theorem padded_eq_numeral {width n : Nat} (positive : 0 < width) (fits : n < 10 ^ width) :
    padded width n = numeral width n := by
  induction width generalizing n with
  | zero => omega
  | succ width ih =>
      rw [Nat.pow_succ] at fits
      by_cases digit : n < 10
      · have tens : n / 10 = 0 := by omega
        have unit : n % 10 = n := by omega
        rw [padded, Nat.toDigits_of_lt_base digit, numeral, tens, unit, numeral_zero]
        rfl
      · have wide : 0 < width := by
          rcases Nat.eq_zero_or_pos width with rfl | wide
          · omega
          · exact wide
        have rest := ih wide (n := n / 10) (by omega)
        rw [padded, Nat.toDigits_of_base_le (by omega) (by omega), numeral, ← rest, padded]
        simp [List.leftpad]

end Metewand.Lib
