/-!
# Doubles

A finite double is kept as its sign, its mantissa and the power of two that scales it, so that
comparing, rounding and printing are exact arithmetic on natural numbers. Every finite double is a
whole multiple of `2 ^ (-1074)`, the least positive one; `Finite.units` is that multiple, and the
order of doubles is the order of these integers.
-/

namespace DocumentDb

/-- A finite double of absolute value `mantissa * 2 ^ (shift - 1074)`. -/
structure Finite where
  /-- Whether the sign bit is set; it is kept for zero as well. -/
  negative : Bool
  mantissa : Nat
  shift : Nat
deriving DecidableEq, Repr, Inhabited

namespace Finite

/-- The value in multiples of the least positive double. -/
def units (x : Finite) : Int :=
  let size : Int := x.mantissa <<< x.shift
  if x.negative then -size else size

/-- Positive zero. -/
def zero : Finite := ⟨false, 0, 0⟩

/-- The absolute value as a quotient of natural numbers. -/
def ratio (x : Finite) : Nat × Nat := (x.mantissa <<< x.shift, 1 <<< 1074)

/-- The order of the values; the two zeros are equal. -/
def order (x y : Finite) : Ordering := compare x.units y.units

/-- The quotient rounded to the nearest natural number, a tie to the even neighbour. -/
def roundHalfEven (num den : Nat) : Nat :=
  let quotient := num / den
  let twice := 2 * (num % den)
  if twice > den || (twice == den && quotient % 2 == 1) then quotient + 1 else quotient

/-- The value nearest to `num / den` that has a mantissa of 53 bits and is a multiple of the least
positive double; ties go to the even mantissa. -/
def nearest (negative : Bool) (num den : Nat) : Finite :=
  let scaled := num <<< 1074
  let shift := (scaled / den).log2 - 52
  let mantissa := roundHalfEven scaled (den <<< shift)
  if mantissa = Nat.pow 2 53 then ⟨negative, Nat.pow 2 52, shift + 1⟩ else ⟨negative, mantissa, shift⟩

/-- The double nearest to an integer; every integer of 64 bits is far below the largest double. -/
def ofInt (n : Int) : Finite := nearest (n < 0) n.natAbs 1

/-- Whether the value is a whole number. -/
def isWhole (x : Finite) : Bool := (x.mantissa <<< x.shift) % (1 <<< 1074) = 0

/-- The absolute value without its fraction. -/
def wholePart (x : Finite) : Nat := (x.mantissa <<< x.shift) / (1 <<< 1074)

end Finite

/-- A double, the infinities and the undefined value included. -/
inductive Double where
  | finite (value : Finite)
  | infinite (negative : Bool)
  | undefined
deriving DecidableEq, Repr, Inhabited

namespace Double

/-- Largest power of two that a finite double's mantissa is scaled by. -/
def maxShift : Nat := 2045

/-- The double nearest to `num / den`; a quotient beyond the largest finite double by half a step
or more is infinite. -/
def ofRatio (negative : Bool) (num den : Nat) : Double :=
  let x := Finite.nearest negative num den
  if x.shift > maxShift then .infinite negative else .finite x

/-- The double nearest to `digits * 10 ^ exponent`. The exponents that are cut off decide the
answer without computing the power. -/
def ofDecimal (negative : Bool) (digits : Nat) (exponent : Int) : Double :=
  if digits = 0 then .finite ⟨negative, 0, 0⟩
  else
    let size : Int := digits.log2 / 3 + 1
    if exponent > 400 then .infinite negative
    else if exponent + size < -400 then .finite ⟨negative, 0, 0⟩
    else if exponent ≥ 0 then ofRatio negative (digits * Nat.pow 10 exponent.toNat) 1
    else ofRatio negative digits (Nat.pow 10 (-exponent).toNat)

/-- The order of two doubles; there is none when one of them is undefined. -/
def order? : Double → Double → Option Ordering
  | .undefined, _ | _, .undefined => none
  | .finite x, .finite y => some (x.order y)
  | .infinite x, .infinite y => some (compare y x)
  | .infinite x, .finite _ => some (if x then .lt else .gt)
  | .finite _, .infinite y => some (if y then .gt else .lt)

/-- Numeric equality: the zeros are equal, and the undefined value equals nothing. -/
def same (x y : Double) : Bool := order? x y == some .eq

/-- Whether `x` is below `y`. -/
def below (x y : Double) : Bool := order? x y == some .lt

end Double

end DocumentDb
