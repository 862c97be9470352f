import DocumentDb.Numeric.Double
import Mathlib.Tactic.Ring
import Mathlib.Tactic.SplitIfs

/-!
# Whole numbers among the doubles

A double has a mantissa of 53 bits. So the double nearest to a whole number is this number just if
the number is one of at most 53 bits followed by zeros; every other whole number is rounded.

* `Finite.wholePart_nearest_iff`: which whole numbers are doubles.
* `Finite.units_ofInt`: the double nearest to an integer, without the steps in which it is found.
* `Finite.eq_of_roundedInt_eq`: no other integer is rounded to one below the 53 bits.
-/

namespace DocumentDb

/-! ### Quotients -/

theorem roundHalfEven_mul {q den : Nat} (hden : 0 < den) :
    Finite.roundHalfEven (q * den) den = q := by
  have hquotient : q * den / den = q := Nat.mul_div_cancel q hden
  have hrest : q * den % den = 0 := Nat.mul_mod_left q den
  have htie : ¬ 0 = den := by omega
  unfold Finite.roundHalfEven
  rw [hquotient, hrest]
  simp [htie]

theorem roundHalfEven_le (num den : Nat) : Finite.roundHalfEven num den ≤ num / den + 1 := by
  unfold Finite.roundHalfEven
  dsimp only
  split_ifs <;> omega

theorem le_roundHalfEven (num den : Nat) : num / den ≤ Finite.roundHalfEven num den := by
  unfold Finite.roundHalfEven
  dsimp only
  split_ifs <;> omega

/-- A quotient is rounded by its value alone. -/
theorem roundHalfEven_scaled (num den : Nat) {unit : Nat} (hunit : 0 < unit) :
    Finite.roundHalfEven (num * unit) (den * unit) = Finite.roundHalfEven num den := by
  have hquotient : num * unit / (den * unit) = num / den := Nat.mul_div_mul_right num den hunit
  have hrest : num * unit % (den * unit) = num % den * unit := Nat.mul_mod_mul_right unit num den
  have htwice : 2 * (num % den * unit) = 2 * (num % den) * unit := (Nat.mul_assoc 2 _ _).symm
  have hmore : den * unit < 2 * (num % den) * unit ↔ den < 2 * (num % den) :=
    Nat.mul_lt_mul_right hunit
  have htie : 2 * (num % den) * unit = den * unit ↔ 2 * (num % den) = den :=
    Nat.mul_left_inj hunit.ne'
  unfold Finite.roundHalfEven
  rw [hquotient, hrest, htwice]
  simp [hmore, htie]

/-! ### The mantissa -/

section Mantissa
variable {scaled m k : Nat}

/-- The mantissa of a number of steps of the least size, before it is brought below its bound. -/
def roundedMantissa (scaled : Nat) : Nat :=
  Finite.roundHalfEven scaled (1 <<< (scaled.log2 - 52))

/-- All but 53 bits of a number are below the step between its neighbours. -/
theorem lt_steps (scaled : Nat) : scaled < 2 ^ 53 * 2 ^ (scaled.log2 - 52) := by
  have hle : scaled.log2 + 1 ≤ 53 + (scaled.log2 - 52) := by omega
  calc scaled < 2 ^ (scaled.log2 + 1) := Nat.lt_log2_self
    _ ≤ 2 ^ (53 + (scaled.log2 - 52)) := Nat.pow_le_pow_right (by decide) hle
    _ = 2 ^ 53 * 2 ^ (scaled.log2 - 52) := pow_add 2 53 _

theorem roundedMantissa_le (scaled : Nat) : roundedMantissa scaled ≤ 2 ^ 53 := by
  have hle := roundHalfEven_le scaled (1 <<< (scaled.log2 - 52))
  have hlt : scaled / 1 <<< (scaled.log2 - 52) < 2 ^ 53 := by
    rw [Nat.one_shiftLeft]
    refine Nat.div_lt_of_lt_mul ?_
    rw [Nat.mul_comm]
    exact lt_steps scaled
  unfold roundedMantissa
  omega

/-- The step between the neighbours of a number divides it if it has at most 53 bits before its
zeros. -/
theorem step_dvd (hm : m < 2 ^ 53) (hscaled : scaled = m * 2 ^ k) :
    2 ^ (scaled.log2 - 52) ∣ scaled := by
  by_cases hzero : scaled = 0
  · rw [hzero]
    exact Nat.dvd_zero _
  have hlt : scaled < 2 ^ (53 + k) := by
    rw [hscaled, pow_add]
    exact Nat.mul_lt_mul_of_pos_right hm (Nat.two_pow_pos k)
  have hlog : scaled.log2 < 53 + k := (Nat.log2_lt hzero).mpr hlt
  have hstep : scaled.log2 - 52 ≤ k := by omega
  have hdvd : 2 ^ (scaled.log2 - 52) ∣ m * 2 ^ k :=
    Dvd.dvd.mul_left (Nat.pow_dvd_pow 2 hstep) m
  rwa [← hscaled] at hdvd

theorem roundedMantissa_mul (hdvd : 2 ^ (scaled.log2 - 52) ∣ scaled) :
    roundedMantissa scaled * 2 ^ (scaled.log2 - 52) = scaled := by
  obtain ⟨q, hq⟩ := hdvd
  have hrounded : roundedMantissa scaled = q := by
    have hround := roundHalfEven_mul (q := q) (Nat.two_pow_pos (scaled.log2 - 52))
    rw [Nat.mul_comm, ← hq] at hround
    rw [roundedMantissa, Nat.one_shiftLeft, hround]
  rw [hrounded, Nat.mul_comm]
  exact hq.symm

end Mantissa

/-! ### Whole numbers -/

namespace Finite

/-- **A whole number of at most 53 bits**, followed by any number of zero bits. -/
def Exact (n : Nat) : Prop := ∃ m k, m < 2 ^ 53 ∧ n = m * 2 ^ k

/-- **A whole number rounded to 53 bits**: the nearest number of at most 53 bits followed by zeros,
of two that are equally near the one with the even mantissa. -/
def rounded (n : Nat) : Nat := roundedMantissa n * 2 ^ (n.log2 - 52)

section Rounded
variable {n : Nat}

theorem exact_of_lt (h : n < 2 ^ 53) : Exact n := ⟨n, 0, h, (Nat.mul_one n).symm⟩

theorem Exact.mul_two_pow (h : Exact n) (unit : Nat) : Exact (n * 2 ^ unit) := by
  obtain ⟨m, k, hm, rfl⟩ := h
  exact ⟨m, k + unit, hm, by rw [pow_add, Nat.mul_assoc]⟩

/-- A number of at most 53 bits and zeros is not rounded. -/
theorem rounded_of_exact (h : Exact n) : rounded n = n := by
  obtain ⟨m, k, hm, hn⟩ := h
  exact roundedMantissa_mul (step_dvd hm hn)

/-- A number of more than 53 bits is not rounded below them. -/
theorem le_rounded (h : 2 ^ 53 ≤ n) : 2 ^ 53 ≤ rounded n := by
  have hne : n ≠ 0 := by omega
  have hlog : 53 ≤ n.log2 := (Nat.le_log2 hne).mpr h
  have hbits : 2 ^ 52 * 2 ^ (n.log2 - 52) = 2 ^ n.log2 := by
    rw [← pow_add]
    congr 1
    omega
  have hquotient : 2 ^ 52 ≤ n / 2 ^ (n.log2 - 52) := by
    rw [Nat.le_div_iff_mul_le (Nat.two_pow_pos _), hbits]
    exact Nat.log2_self_le hne
  have hmantissa : 2 ^ 52 ≤ roundedMantissa n := by
    have hle := le_roundHalfEven n (1 <<< (n.log2 - 52))
    rw [Nat.one_shiftLeft] at hle
    rw [roundedMantissa, Nat.one_shiftLeft]
    omega
  calc 2 ^ 53 ≤ 2 ^ n.log2 := Nat.pow_le_pow_right (by decide) hlog
    _ = 2 ^ 52 * 2 ^ (n.log2 - 52) := hbits.symm
    _ ≤ rounded n := Nat.mul_le_mul_right _ hmantissa

theorem log2_mul_two_pow (h : n ≠ 0) (unit : Nat) : (n * 2 ^ unit).log2 = n.log2 + unit := by
  have hne : n * 2 ^ unit ≠ 0 := Nat.mul_ne_zero h (Nat.two_pow_pos unit).ne'
  refine (Nat.log2_eq_iff hne).mpr ⟨?_, ?_⟩
  · rw [pow_add]
    exact Nat.mul_le_mul_right _ (Nat.log2_self_le h)
  · rw [Nat.add_right_comm, pow_add]
    exact Nat.mul_lt_mul_of_pos_right Nat.lt_log2_self (Nat.two_pow_pos unit)

/-- Zeros behind a number do not matter. -/
theorem rounded_mul_two_pow (n unit : Nat) : rounded (n * 2 ^ unit) = rounded n * 2 ^ unit := by
  rcases Nat.lt_or_ge n (2 ^ 53) with hlt | hle
  · have hexact := exact_of_lt hlt
    rw [rounded_of_exact hexact, rounded_of_exact (hexact.mul_two_pow unit)]
  · have hne : n ≠ 0 := by omega
    have hlog : 53 ≤ n.log2 := (Nat.le_log2 hne).mpr hle
    have hstep : n.log2 + unit - 52 = n.log2 - 52 + unit := by omega
    have hmantissa : roundedMantissa (n * 2 ^ unit) = roundedMantissa n := by
      rw [roundedMantissa, roundedMantissa, log2_mul_two_pow hne, hstep, Nat.one_shiftLeft,
        Nat.one_shiftLeft, pow_add, roundHalfEven_scaled _ _ (Nat.two_pow_pos unit)]
    rw [rounded, rounded, hmantissa, log2_mul_two_pow hne, hstep, pow_add, Nat.mul_assoc]

end Rounded

variable (negative : Bool) (n : Nat)

theorem nearest_eq : nearest negative n 1 =
    if roundedMantissa (n <<< 1074) = 2 ^ 53 then
      ⟨negative, 2 ^ 52, (n <<< 1074).log2 - 52 + 1⟩
    else ⟨negative, roundedMantissa (n <<< 1074), (n <<< 1074).log2 - 52⟩ := by
  simp only [nearest, Nat.div_one]
  rfl

theorem negative_nearest : (nearest negative n 1).negative = negative := by
  rw [nearest_eq]
  split_ifs <;> rfl

theorem mantissa_nearest_lt : (nearest negative n 1).mantissa < 2 ^ 53 := by
  rw [nearest_eq]
  generalize n <<< 1074 = scaled
  have hle := roundedMantissa_le scaled
  split_ifs with htop
  · show 2 ^ 52 < 2 ^ 53
    omega
  · show roundedMantissa scaled < 2 ^ 53
    omega

/-- The double nearest to a number is the number rounded to 53 bits. -/
theorem shiftLeft_nearest :
    (nearest negative n 1).mantissa <<< (nearest negative n 1).shift = rounded n * 2 ^ 1074 := by
  rw [nearest_eq]
  generalize 1074 = unit
  have hscaled : rounded (n <<< unit) = rounded n * 2 ^ unit := by
    rw [Nat.shiftLeft_eq, rounded_mul_two_pow]
  rw [← hscaled, rounded]
  split_ifs with htop
  · have htwice : 2 ^ ((n <<< unit).log2 - 52 + 1) = 2 * 2 ^ ((n <<< unit).log2 - 52) :=
      pow_succ' 2 _
    show 2 ^ 52 <<< ((n <<< unit).log2 - 52 + 1) = _
    rw [htop, Nat.shiftLeft_eq, htwice, ← Nat.mul_assoc, show 2 ^ 52 * 2 = 2 ^ 53 from rfl]
  · rw [Nat.shiftLeft_eq]

/-- What is nearest to a number below a power of two has a bounded shift. -/
theorem shift_nearest_le {bits : Nat} (hn : n < 2 ^ bits) :
    (nearest negative n 1).shift ≤ bits + 1074 + 1 := by
  rw [nearest_eq]
  generalize 1074 = unit
  have hlog : (n <<< unit).log2 ≤ bits + unit := by
    by_cases hzero : n <<< unit = 0
    · rw [hzero]
      exact Nat.zero_le _
    have hlt : n <<< unit < 2 ^ (bits + unit) := by
      rw [Nat.shiftLeft_eq, pow_add]
      exact Nat.mul_lt_mul_of_pos_right hn (Nat.two_pow_pos _)
    exact ((Nat.log2_lt hzero).mpr hlt).le
  split_ifs with htop
  · show (n <<< unit).log2 - 52 + 1 ≤ bits + unit + 1
    omega
  · show (n <<< unit).log2 - 52 ≤ bits + unit + 1
    omega

/-- **Which whole numbers are doubles**: those of at most 53 bits followed by zeros. -/
theorem wholePart_nearest_iff : (nearest negative n 1).isWhole = true ∧
    (nearest negative n 1).wholePart = n ↔ Exact n := by
  have hbound := mantissa_nearest_lt negative n
  have hexact := shiftLeft_nearest negative n
  unfold isWhole wholePart
  generalize nearest negative n 1 = x at hbound hexact
  generalize 1074 = unit at hexact
  rw [Nat.one_shiftLeft, decide_eq_true_eq]
  constructor
  · rintro ⟨hwhole, hpart⟩
    have hsize : x.mantissa * 2 ^ x.shift = n * 2 ^ unit := by
      have hdivision := Nat.div_add_mod (x.mantissa <<< x.shift) (2 ^ unit)
      rw [hwhole, hpart, Nat.add_zero, Nat.shiftLeft_eq, Nat.mul_comm] at hdivision
      exact hdivision.symm
    rcases Nat.le_total unit x.shift with hle | hle
    · -- the number is the mantissa with zeros behind it
      refine ⟨x.mantissa, x.shift - unit, hbound, ?_⟩
      have hsplit : 2 ^ x.shift = 2 ^ (x.shift - unit) * 2 ^ unit := by
        rw [← pow_add, Nat.sub_add_cancel hle]
      rw [hsplit, ← Nat.mul_assoc] at hsize
      exact (Nat.eq_of_mul_eq_mul_right (Nat.two_pow_pos unit) hsize).symm
    · -- the mantissa is the number with zeros behind it
      refine ⟨n, 0, ?_, by rw [pow_zero, Nat.mul_one]⟩
      have hsplit : 2 ^ unit = 2 ^ (unit - x.shift) * 2 ^ x.shift := by
        rw [← pow_add, Nat.sub_add_cancel hle]
      rw [hsplit, ← Nat.mul_assoc] at hsize
      have hmantissa := Nat.eq_of_mul_eq_mul_right (Nat.two_pow_pos x.shift) hsize
      have hle : n ≤ n * 2 ^ (unit - x.shift) := Nat.le_mul_of_pos_right n (Nat.two_pow_pos _)
      omega
  · intro h
    rw [hexact, rounded_of_exact h]
    exact ⟨Nat.mul_mod_left n _, Nat.mul_div_cancel n (Nat.two_pow_pos unit)⟩

/-! ### Integers -/

/-- An integer rounded to 53 bits. -/
def roundedInt (n : Int) : Int := if n < 0 then -(rounded n.natAbs : Int) else rounded n.natAbs

/-- **The double nearest to an integer** is the integer rounded to 53 bits. -/
theorem units_ofInt (n : Int) : (ofInt n).units = roundedInt n * 2 ^ 1074 := by
  have hsize := shiftLeft_nearest (decide (n < 0)) n.natAbs
  have hsign := negative_nearest (decide (n < 0)) n.natAbs
  unfold units ofInt roundedInt
  rw [hsize, hsign]
  generalize 1074 = unit
  split_ifs with hdecide hnegative hnegative
  · rw [Nat.cast_mul, Int.neg_mul, Nat.cast_pow]
    rfl
  · exact absurd (of_decide_eq_true hdecide) hnegative
  · exact absurd (decide_eq_true hnegative) hdecide
  · rw [Nat.cast_mul, Nat.cast_pow]
    rfl

theorem roundedInt_of_exact {n : Int} (h : Exact n.natAbs) : roundedInt n = n := by
  unfold roundedInt
  rw [rounded_of_exact h]
  split_ifs <;> omega

theorem natAbs_roundedInt (n : Int) : (roundedInt n).natAbs = rounded n.natAbs := by
  unfold roundedInt
  split_ifs <;> omega

/-- **No other integer is rounded to one below the 53 bits.** -/
theorem eq_of_roundedInt_eq {m n : Int} (hm : m.natAbs < 2 ^ 53)
    (h : roundedInt m = roundedInt n) : m = n := by
  have hmExact := exact_of_lt hm
  have hsize : rounded n.natAbs = m.natAbs := by
    rw [← natAbs_roundedInt n, ← h, natAbs_roundedInt, rounded_of_exact hmExact]
  have hn : n.natAbs < 2 ^ 53 := by
    by_contra hge
    have hle := le_rounded (Nat.le_of_not_lt hge)
    omega
  rw [← roundedInt_of_exact hmExact, h, roundedInt_of_exact (exact_of_lt hn)]

end Finite

namespace Double

/-- **No whole number of 64 bits is rounded to an infinity.** -/
theorem ofRatio_one {n : Nat} (negative : Bool) (hn : n < 2 ^ 64) :
    ofRatio negative n 1 = .finite (Finite.nearest negative n 1) := by
  have hshift := Finite.shift_nearest_le negative n hn
  have hfinite : ¬ (Finite.nearest negative n 1).shift > maxShift := by
    unfold maxShift
    omega
  unfold ofRatio
  rw [if_neg hfinite]

end Double

end DocumentDb
