import DocumentDb.Numeric.Double

/-!
# Reading doubles from text

A text is a double when it is an optional sign followed by `inf`, `infinity` or `nan` in any case,
or by decimal digits with an optional point and an optional exponent, at least one digit standing
before the exponent. The digits are rounded once, to the nearest double.
-/

namespace DocumentDb

/-- Whether a character is one of the ten ASCII digits. -/
def isDigit (c : Char) : Bool := '0' ≤ c && c ≤ '9'

/-- The value of an ASCII digit. -/
def digitValue (c : Char) : Nat := c.toNat - 48

/-- The number written by a run of ASCII digits. -/
def digitsValue (digits : List Char) : Nat :=
  digits.foldl (fun n c => n * 10 + digitValue c) 0

/-- An optional sign and the characters behind it. -/
def splitSign : List Char → Bool × List Char
  | '-' :: rest => (true, rest)
  | '+' :: rest => (false, rest)
  | text => (false, text)

/-- The integer of a sign and a nonempty run of digits that fill the whole text. -/
def readExponent? (text : List Char) : Option Int :=
  let (negative, digits) := splitSign text
  if digits.isEmpty || !digits.all isDigit then none
  else
    let n : Int := digitsValue digits
    some (if negative then -n else n)

/-- The double of an unsigned decimal text. -/
def readMagnitude? (negative : Bool) (text : List Char) : Option Double :=
  let whole := text.takeWhile isDigit
  let afterWhole := text.dropWhile isDigit
  let (fraction, rest) := match afterWhole with
    | '.' :: tail => (tail.takeWhile isDigit, tail.dropWhile isDigit)
    | tail => ([], tail)
  if whole.isEmpty && fraction.isEmpty then none
  else
    let exponent? := match rest with
      | [] => some 0
      | c :: tail => if c = 'e' || c = 'E' then readExponent? tail else none
    exponent?.map fun exponent =>
      Double.ofDecimal negative (digitsValue (whole ++ fraction)) (exponent - fraction.length)

/-- The double that a whole text denotes. -/
def readDouble? (text : String) : Option Double :=
  let (negative, rest) := splitSign text.toList
  let word := String.ofList (rest.map Char.toLower)
  if word = "inf" || word = "infinity" then some (.infinite negative)
  else if word = "nan" then some .undefined
  else readMagnitude? negative rest

/-- The natural number that a whole text denotes: an optional plus sign and ASCII digits, below
`bound`. -/
def readNatBelow? (bound : Nat) (text : String) : Option Nat :=
  let digits := match text.toList with
    | '+' :: rest => rest
    | all => all
  if digits.isEmpty || !digits.all isDigit then none
  else
    let n := digitsValue digits
    if n < bound then some n else none

/-- The number of words of 64 bits. -/
def wordBound : Nat := 18446744073709551616

end DocumentDb
