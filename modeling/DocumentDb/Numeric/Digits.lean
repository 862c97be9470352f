import DocumentDb.Numeric.Double

/-!
# Decimal texts of doubles

A finite double is written with the fewest decimal digits that read back to it, and among the
texts of that length with the digits nearest to its value. `shortest` chooses the digits in exact
arithmetic; a `Layout` says where the decimal point stands and when an exponent is written.
-/

namespace DocumentDb

/-- The number `digits * 10 ^ exponent`. -/
structure Decimal where
  digits : Nat
  exponent : Int
deriving DecidableEq, Repr, Inhabited

namespace Decimal

/-- The same number without trailing zero digits. The fuel is the number of digits. -/
def normalize (d : Decimal) : Decimal := go d.digits.log2 d
where
  go : Nat → Decimal → Decimal
    | 0, d => d
    | fuel + 1, d =>
      if d.digits ≠ 0 ∧ d.digits % 10 = 0 then go fuel ⟨d.digits / 10, d.exponent + 1⟩ else d

/-- The digits as text. -/
def text (d : Decimal) : String := toString d.digits

/-- The power of ten of the first digit. -/
def leading (d : Decimal) : Int := d.exponent + d.text.length - 1

end Decimal

namespace Finite

/-- The largest `p` with `10 ^ p ≤ num / den`, searched downward from a bound. -/
def leadingPower (num den : Nat) : Int :=
  let guess : Int := ((num.log2 : Int) - (den.log2 : Int)) * 30103 / 100000 + 2
  go 6 guess
where
  /-- Whether `10 ^ p ≤ num / den`. -/
  reaches (p : Int) : Bool :=
    if p ≥ 0 then den * Nat.pow 10 p.toNat ≤ num else den ≤ num * Nat.pow 10 (-p).toNat
  go : Nat → Int → Int
    | 0, p => p
    | fuel + 1, p => if reaches p then p else go fuel (p - 1)

/-- The shortest decimal that reads back to a positive double, given as quarter steps: the double
is `value`, and the reals that round to it lie between `lower` and `upper`, the ends included if
`closed`, all over `den`. The first grid of at most `17` digits with a point in the interval
wins. -/
def shortestBetween (value lower upper den : Nat) (closed : Bool) : Decimal :=
  let power := leadingPower value den
  go 17 power
where
  inside (num scale : Nat) : Bool :=
    if closed then lower * scale ≤ num && num ≤ upper * scale
    else lower * scale < num && num < upper * scale
  go : Nat → Int → Decimal
    | 0, exponent => ⟨0, exponent⟩
    | fuel + 1, exponent =>
      let (num, step) : Nat × Nat :=
        if exponent ≥ 0 then (value, den * Nat.pow 10 exponent.toNat)
        else (value * Nat.pow 10 (-exponent).toNat, den)
      let scale : Nat := if exponent ≥ 0 then 1 else Nat.pow 10 (-exponent).toNat
      let floor := num / step
      let rest := num % step
      let low := inside (floor * step) scale
      let high := inside ((floor + 1) * step) scale
      if low && (!high || 2 * rest < step || (2 * rest == step && floor % 2 == 0)) then
        ⟨floor, exponent⟩
      else if high then ⟨floor + 1, exponent⟩
      else if fuel = 0 then ⟨roundHalfEven num step, exponent⟩
      else go fuel (exponent - 1)

/-- The fewest digits that read back to the absolute value of `x`. -/
def shortest (x : Finite) : Decimal :=
  if x.mantissa = 0 then ⟨0, 0⟩
  else
    let step := 1 <<< x.shift
    let value := 4 * x.mantissa * step
    let below := if x.mantissa = Nat.pow 2 52 ∧ x.shift > 0 then step else 2 * step
    (shortestBetween value (value - below) (value + 2 * step) (1 <<< 1076)
      (x.mantissa % 2 = 0)).normalize

end Finite

/-- How a decimal is laid out. -/
structure Layout where
  /-- Whether a number whose first digit has this power of ten is written without an exponent. -/
  positional : Int → Bool
  /-- What follows the digits of a whole number that is written without an exponent. -/
  wholeSuffix : String
  /-- What stands before an exponent that is not negative. -/
  exponentMark : String

namespace Layout

/-- Numbers in documents: positional from `10 ^ (-5)` up to below `10 ^ 16`, and whole doubles keep
a `.0`. -/
def document : Layout := ⟨fun p => -5 ≤ p && p < 16, ".0", "e+"⟩

/-- Numbers in YAML: as in documents, but exponents have no plus sign. -/
def yaml : Layout := { document with exponentMark := "e" }

/-- Numbers in messages: always positional, and whole doubles have no fraction. -/
def message : Layout := ⟨fun _ => true, "", "e"⟩

/-- The text of a decimal without sign. -/
def write (layout : Layout) (d : Decimal) : String :=
  let digits := d.text
  let leading := d.leading
  if d.digits = 0 then "0" ++ layout.wholeSuffix
  else if layout.positional leading then
    if d.exponent ≥ 0 then
      digits ++ String.ofList (List.replicate d.exponent.toNat '0') ++ layout.wholeSuffix
    else if leading ≥ 0 then
      let whole := leading.toNat + 1
      String.ofList (digits.toList.take whole) ++ "." ++ String.ofList (digits.toList.drop whole)
    else
      "0." ++ String.ofList (List.replicate (-leading - 1).toNat '0') ++ digits
  else
    let fraction := if digits.length = 1 then "" else "." ++ String.ofList (digits.toList.drop 1)
    let mark := if leading ≥ 0 then layout.exponentMark else "e-"
    String.ofList (digits.toList.take 1) ++ fraction ++ mark ++ toString leading.natAbs

end Layout

/-- The text of a finite double. -/
def Finite.text (x : Finite) (layout : Layout) : String :=
  (if x.negative then "-" else "") ++ layout.write x.shortest

end DocumentDb
