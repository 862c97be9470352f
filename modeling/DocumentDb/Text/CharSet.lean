/-!
# Sets of characters

A set of characters is a list of ranges of code points in ascending order. Large sets are written
as text, each range as its ends in hexadecimal.
-/

namespace DocumentDb.Text

/-- Ranges of code points, both ends included, in ascending order. -/
abbrev CharSet := List (Nat × Nat)

namespace CharSet

/-- Whether a code point lies in one of the ranges. -/
def contains : CharSet → Nat → Bool
  | [], _ => false
  | (first, last) :: rest, n => if n < first then false else n ≤ last || contains rest n

/-- The value of a lower-case hexadecimal digit. -/
def hexValue (c : Char) : Nat := if c ≤ '9' then c.toNat - 48 else c.toNat - 87

/-- The number of a hexadecimal text. -/
def hexNumber (digits : List Char) : Nat := digits.foldl (fun n c => n * 16 + hexValue c) 0

/-- One range, written as one code point or as two with a dash between them. -/
def readRange (text : List Char) : Nat × Nat :=
  let first := text.takeWhile (· ≠ '-')
  match text.dropWhile (· ≠ '-') with
  | [] => (hexNumber first, hexNumber first)
  | _ :: last => (hexNumber first, hexNumber last)

/-- The ranges of a text that separates them by spaces or line ends. -/
def ofText (text : String) : CharSet :=
  ((text.toList.splitOnP fun c => c = ' ' || c = '\n').filter (!·.isEmpty)).map readRange

end CharSet

end DocumentDb.Text
