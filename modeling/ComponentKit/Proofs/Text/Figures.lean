import ComponentKit.Instant
import Mathlib

/-!
# Figures

`ofNat` writes numbers in figures alone. So the day and the time that a component and a snapshot are marked with
have no characters but figures, and those that stand between the numbers.
-/

namespace ComponentKit

variable {c : Char}

namespace Text

theorem ofNat_eq_toDigits (n : Nat) : ofNat n = Nat.toDigits 10 n :=
  Nat.toList_repr

theorem isDigit_of_mem_ofNat {n : Nat} (h : c ∈ ofNat n) : c.isDigit = true := by
  rw [ofNat_eq_toDigits] at h
  exact Nat.isDigit_of_mem_toDigits (by decide) (by decide) h

theorem ofNat_ne_nil (n : Nat) : ofNat n ≠ [] := by
  rw [ofNat_eq_toDigits]
  exact Nat.toDigits_ne_nil

/-- Different numbers are written in different figures. -/
theorem ofNat_injective : Function.Injective ofNat :=
  fun _ _ h => Nat.repr_injective (String.toList_inj.mp h)

/-- Only zero is written with a zero in front. -/
theorem head?_ofNat {n : Nat} (h : (ofNat n).head? = some '0') : n = 0 := by
  induction n using Nat.strongRecOn with
  | ind n ih =>
    rw [ofNat_eq_toDigits, Nat.toDigits_eq_if (by decide)] at h
    split at h
    · exact Nat.digitChar_eq_zero.mp (Option.some.inj h)
    · rename_i hten
      -- the first figure of a longer number is that of its tenth part
      rw [List.head?_append_of_ne_nil _ Nat.toDigits_ne_nil, ← ofNat_eq_toDigits] at h
      have hzero := ih (n / 10) (by omega) h
      omega

theorem isDigit_of_mem_ofNatPadded {places n : Nat} (h : c ∈ ofNatPadded places n) : c.isDigit = true := by
  rcases List.mem_append.mp h with h | h
  · rw [List.eq_of_mem_replicate h]
    rfl
  · exact isDigit_of_mem_ofNat h

theorem notMem_ofNatPadded (h : c.isDigit = false) (places n : Nat) : c ∉ ofNatPadded places n := by
  intro hmem
  rw [isDigit_of_mem_ofNatPadded hmem] at h
  cases h

end Text

namespace Instant

open Text

/-- A day is written in figures and hyphens. -/
theorem notMem_date (hdigit : c.isDigit = false) (hyphen : c ≠ '-') (instant : Instant) : c ∉ instant.date := by
  simp [date, concat, notMem_ofNatPadded hdigit, hyphen]

/-- A time has two letters besides. -/
theorem notMem_stamp (hdigit : c.isDigit = false) (hsign : c ∉ ['-', 'T', 'Z']) (instant : Instant) :
    c ∉ instant.stamp := by
  simp only [List.mem_cons, List.not_mem_nil, or_false, not_or] at hsign
  simp [stamp, concat, notMem_ofNatPadded hdigit, notMem_date hdigit hsign.1, hsign]

end Instant

end ComponentKit
