import Mathlib.Data.Int.Basic
import Mathlib.Tactic.Linarith

set_option autoImplicit false

namespace FdsPaxos.RadixPairs

def value (base high low : ℤ) : ℤ := high * base + low

def IsDigit (base low : ℤ) : Prop := 0 ≤ low ∧ low < base

variable {base high low high' low' : ℤ}

theorem value_lt_of_high_lt (digit : IsDigit base low) (digit' : IsDigit base low')
    (lt : high < high') : value base high low < value base high' low' := by
  obtain ⟨nonneg, small⟩ := digit
  obtain ⟨nonneg', -⟩ := digit'
  have positive : 0 ≤ base := by omega
  have step : (high + 1) * base ≤ high' * base :=
    mul_le_mul_of_nonneg_right (by omega) positive
  simp only [value]
  linarith

theorem lexicographic_iff (digit : IsDigit base low) (digit' : IsDigit base low') :
    high < high' ∨ (high = high' ∧ low < low') ↔
      value base high low < value base high' low' := by
  rcases lt_trichotomy high high' with lt | rfl | gt
  · simp [lt, value_lt_of_high_lt digit digit' lt]
  · simp [value]
  · have reversed := value_lt_of_high_lt digit' digit gt
    constructor
    · rintro (lt | ⟨eq, -⟩) <;> omega
    · omega

end FdsPaxos.RadixPairs
