import Mathlib.Logic.Function.Defs
import ShaderShrink.Text.Decimal

/-!
# Padded decimal numbers

A padded number has digits only, and reading it gives the number again. So different numbers have
different texts.
-/

namespace ShaderShrink.Text

variable {width n : Nat} {c : Char}

/-- Zeros fill the width that the digits leave free. -/
theorem toList_padded : (padded width n).toList =
    List.replicate (width - (Nat.toDigits 10 n).length) '0' ++ Nat.toDigits 10 n := by
  rw [padded, String.toList_ofList]

/-- A padded number consists of digits. -/
theorem isDigit_of_mem_padded (h : c ∈ (padded width n).toList) : c.isDigit := by
  rw [toList_padded, List.mem_append] at h
  rcases h with h | h
  · rw [List.eq_of_mem_replicate h]
    rfl
  · exact Nat.isDigit_of_mem_toDigits (by omega) (by omega) h

/-- A padded number has digits. -/
theorem padded_ne_empty : padded width n ≠ "" := by
  intro h
  have hdigits := congrArg String.toList h
  rw [toList_padded] at hdigits
  exact Nat.toDigits_ne_nil (List.append_eq_nil_iff.1 hdigits).2

/-- A padded number is read as the number. -/
theorem ofDigits?_padded : ofDigits? (padded width n).toList = some n := by
  have hne : (padded width n).toList ≠ [] := mt String.toList_eq_nil_iff.1 padded_ne_empty
  have hdigits : (padded width n).toList.all Char.isDigit := by
    rw [List.all_eq_true]
    exact fun c => isDigit_of_mem_padded
  have hvalue : Nat.ofDigitChars 10 (padded width n).toList 0 = n := by
    rw [toList_padded, Nat.ofDigitChars_append, Nat.ofDigitChars_replicate_zero, Nat.mul_zero]
    exact Nat.ofDigitChars_toDigits (by omega) (by omega)
  simp [ofDigits?, hne, hdigits, hvalue]

/-- Different numbers are padded to different texts. -/
theorem padded_injective (width : Nat) : Function.Injective (padded width) := by
  intro m n h
  have hread := congrArg (fun text => ofDigits? text.toList) h
  simpa only [ofDigits?_padded, Option.some_inj] using hread

end ShaderShrink.Text
