import Mathlib.Data.Int.Notation
import Mathlib.Logic.Function.Basic

/-! # Printed integers

A printed natural number reads back, so printing is injective; the sign keeps a negative number
apart from the others.
-/

namespace Decimal

theorem natRepr_injective : Function.Injective Nat.repr := by
  intro m n h
  have hdigits : Nat.toDigits 10 m = Nat.toDigits 10 n := by
    rw [← Nat.toList_repr, ← Nat.toList_repr, h]
  rw [← @Nat.ofDigitChars_ten_toDigits m, hdigits, Nat.ofDigitChars_ten_toDigits]

theorem isDigit_of_mem_natRepr {n : Nat} {c : Char} (h : c ∈ n.repr.toList) :
    c.isDigit = true := by
  rw [Nat.toList_repr] at h
  exact Nat.isDigit_of_mem_toDigits (by omega) (by omega) h

theorem minus_append_ne_natRepr (m n : Nat) : "-" ++ m.repr ≠ n.repr := by
  intro h
  have hmem : '-' ∈ n.repr.toList := by
    rw [← h, String.toList_append]
    simp
  exact absurd (isDigit_of_mem_natRepr hmem) (by decide)

theorem intRepr_injective : Function.Injective Int.repr := by
  intro a b h
  rw [Int.repr_eq_if, Int.repr_eq_if] at h
  by_cases ha : 0 ≤ a
  · by_cases hb : 0 ≤ b
    · rw [if_pos ha, if_pos hb] at h
      have hnat := natRepr_injective h
      omega
    · rw [if_pos ha, if_neg hb] at h
      exact absurd h.symm (minus_append_ne_natRepr _ _)
  · by_cases hb : 0 ≤ b
    · rw [if_neg ha, if_pos hb] at h
      exact absurd h (minus_append_ne_natRepr _ _)
    · rw [if_neg ha, if_neg hb, String.append_right_inj] at h
      have hnat := natRepr_injective h
      omega

/-- A printed integer has digits and its sign only. -/
theorem mem_intRepr {a : Int} {c : Char} (h : c ∈ a.repr.toList) :
    c = '-' ∨ c.isDigit = true := by
  rw [Int.repr_eq_if] at h
  split at h
  · exact .inr (isDigit_of_mem_natRepr h)
  · rw [String.toList_append] at h
    rcases List.mem_append.mp h with hsign | hdigits
    · exact .inl (by simpa using hsign)
    · exact .inr (isDigit_of_mem_natRepr hdigits)

end Decimal
