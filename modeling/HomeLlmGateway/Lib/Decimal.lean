import Mathlib.Data.Nat.Digits.Defs
import Mathlib.Tactic

/-! # Decimal numbers

Natural numbers as they are printed and read: `Nat.toDigits 10` and its inverse `readNat`, which takes digits
only; `readUnsigned` is the reading of an unsigned machine integer, with a sign allowed before the digits. -/

namespace HomeLlmGateway.Lib.Decimal

/-- The digits of a number. -/
def printNat (n : ℕ) : List Char := Nat.toDigits 10 n

/-- The number that the digits say. -/
def readNat (s : List Char) : Option ℕ :=
  if s ≠ [] ∧ s.all Char.isDigit then some (Nat.ofDigitChars 10 s 0) else none

/-- A number below `bound`, with or without a plus sign. -/
def readUnsigned (bound : ℕ) (s : List Char) : Option ℕ :=
  (readNat (if s.head? = some '+' then s.tail else s)).filter (· < bound)

theorem isDigit_of_mem_printNat {n : ℕ} {c : Char} (h : c ∈ printNat n) : c.isDigit = true :=
  Nat.isDigit_of_mem_toDigits (by norm_num) (le_refl 10) h

theorem printNat_ne_nil (n : ℕ) : printNat n ≠ [] := Nat.toDigits_ne_nil

@[simp] theorem readNat_printNat (n : ℕ) : readNat (printNat n) = some n := by
  unfold readNat
  rw [if_pos ⟨printNat_ne_nil n, List.all_eq_true.mpr fun c hc => isDigit_of_mem_printNat hc⟩]
  exact congrArg some Nat.ofDigitChars_ten_toDigits

theorem head?_printNat_ne (n : ℕ) : (printNat n).head? ≠ some '+' := by
  intro h
  have hmem : '+' ∈ printNat n := List.mem_of_mem_head? h
  exact absurd (isDigit_of_mem_printNat hmem) (by decide)

theorem readUnsigned_printNat {n bound : ℕ} (h : n < bound) : readUnsigned bound (printNat n) = some n := by
  unfold readUnsigned
  rw [if_neg (head?_printNat_ne n), readNat_printNat]
  simp [h]

end HomeLlmGateway.Lib.Decimal
