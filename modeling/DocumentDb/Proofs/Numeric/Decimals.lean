import DocumentDb.Numeric.Double
import Mathlib.Tactic.Ring
import Mathlib.Tactic.SplitIfs

/-!
# Decimals among the doubles

A decimal with a large exponent is infinite and one with a small exponent is zero, and the power of
ten is not computed for these. The exponents that are cut off are so far out that the answer is that
of rounding the exact quotient.

* `Double.ofDecimal_eq`: a decimal is rounded as the quotient that it is.
-/

namespace DocumentDb

namespace Finite

variable {negative : Bool} {num den : Nat}

/-- What is below half of the least positive double is rounded to zero. -/
theorem nearest_of_small (h : 2 * (num <<< 1074) < den) :
    nearest negative num den = ⟨negative, 0, 0⟩ := by
  unfold nearest
  generalize num <<< 1074 = scaled at h
  have hquotient : scaled / den = 0 := Nat.div_eq_of_lt (by omega)
  have hrest : scaled % den = scaled := Nat.mod_eq_of_lt (by omega)
  have hmantissa : roundHalfEven scaled den = 0 := by
    have hhalf : ¬ 2 * scaled > den := by omega
    unfold roundHalfEven
    rw [hquotient, hrest]
    simp [hhalf]
  simp [hquotient, hmantissa]

theorem le_log2_shiftLeft {bits : Nat} (h : 2 ^ bits ≤ num) (unit : Nat) :
    bits + unit ≤ (num <<< unit).log2 := by
  have hshifted : 2 ^ (bits + unit) ≤ num <<< unit := by
    rw [Nat.shiftLeft_eq, pow_add]
    exact Nat.mul_le_mul_right _ h
  have hpositive : num <<< unit ≠ 0 := Nat.ne_of_gt ((Nat.two_pow_pos _).trans_le hshifted)
  exact (Nat.le_log2 hpositive).mpr hshifted

/-- What has more than 1024 bits has a shift beyond that of every finite double. -/
theorem lt_shift_nearest (h : 2 ^ 1024 ≤ num) :
    Double.maxShift < (nearest negative num 1).shift := by
  have hlog := le_log2_shiftLeft h 1074
  unfold nearest Double.maxShift
  simp only [Nat.div_one]
  generalize num <<< 1074 = scaled at hlog
  split_ifs
  · show 2045 < scaled.log2 - 52 + 1
    omega
  · show 2045 < scaled.log2 - 52
    omega

end Finite

namespace Double

/-- A number has no more decimal digits than a third of its bits, rounded up. -/
theorem lt_ten_pow (n : Nat) : n < 10 ^ (n.log2 / 3 + 1) := by
  have hbits : n.log2 + 1 ≤ 3 * (n.log2 / 3 + 1) := by omega
  calc n < 2 ^ (n.log2 + 1) := Nat.lt_log2_self
    _ ≤ 2 ^ (3 * (n.log2 / 3 + 1)) := Nat.pow_le_pow_right (by decide) hbits
    _ = (2 ^ 3) ^ (n.log2 / 3 + 1) := pow_mul 2 3 _
    _ ≤ 10 ^ (n.log2 / 3 + 1) := Nat.pow_le_pow_left (by decide) _

theorem two_mul_shiftLeft_lt {n power unit : Nat} (hunit : 2 ^ (unit + 1) ≤ 10 ^ power) :
    2 * (n <<< unit) < 10 ^ (n.log2 / 3 + 1 + power) := by
  calc 2 * (n <<< unit) = n * 2 ^ (unit + 1) := by rw [Nat.shiftLeft_eq]; ring
    _ < 10 ^ (n.log2 / 3 + 1) * 2 ^ (unit + 1) :=
      Nat.mul_lt_mul_of_pos_right (lt_ten_pow n) (Nat.two_pow_pos _)
    _ ≤ 10 ^ (n.log2 / 3 + 1) * 10 ^ power := Nat.mul_le_mul_left _ hunit
    _ = 10 ^ (n.log2 / 3 + 1 + power) := (pow_add 10 _ power).symm

theorem ofRatio_of_small {negative : Bool} {num den : Nat} (h : 2 * (num <<< 1074) < den) :
    ofRatio negative num den = .finite ⟨negative, 0, 0⟩ := by
  rw [ofRatio, Finite.nearest_of_small h]
  rfl

/-- **A decimal is rounded as the quotient that it is**, whatever its exponent. -/
theorem ofDecimal_eq (negative : Bool) (digits : Nat) (exponent : Int) :
    ofDecimal negative digits exponent =
      ofRatio negative (digits * 10 ^ exponent.toNat) (10 ^ (-exponent).toNat) := by
  rw [ofDecimal]
  dsimp only
  split_ifs with hdigits hlarge hsmall hwhole
  · rw [hdigits, Nat.zero_mul, ofRatio_of_small]
    rw [Nat.zero_shiftLeft]
    exact Nat.pow_pos (by decide)
  · -- beyond the range of the finite doubles
    have hden : (-exponent).toNat = 0 := by omega
    have hrange : 2 ^ 1024 ≤ digits * 10 ^ exponent.toNat := by
      calc 2 ^ 1024 ≤ 10 ^ 401 := by decide +kernel
        _ ≤ 10 ^ exponent.toNat := Nat.pow_le_pow_right (by decide) (by omega)
        _ ≤ digits * 10 ^ exponent.toNat := Nat.le_mul_of_pos_left _ (by omega)
    rw [hden, pow_zero, ofRatio, if_pos (Finite.lt_shift_nearest hrange)]
  · -- below half of the least positive double
    have hnum : exponent.toNat = 0 := by omega
    have hden : digits.log2 / 3 + 1 + 401 ≤ (-exponent).toNat := by omega
    rw [hnum, pow_zero, Nat.mul_one, ofRatio_of_small]
    calc 2 * (digits <<< 1074) < 10 ^ (digits.log2 / 3 + 1 + 401) :=
        two_mul_shiftLeft_lt (by decide +kernel)
      _ ≤ 10 ^ (-exponent).toNat := Nat.pow_le_pow_right (by decide) hden
  · have hden : (-exponent).toNat = 0 := by omega
    rw [hden, pow_zero]
    rfl
  · have hnum : exponent.toNat = 0 := by omega
    rw [hnum, pow_zero, Nat.mul_one]
    rfl

end Double

end DocumentDb
