import DocumentDb.Text.CaseTable
import DocumentDb.Text.Property

/-!
# Small letters and capitals

The full case mappings. A capital sigma becomes the final form of the small letter when a cased
letter stands before it and none behind it, characters that have no bearing on case passed over.
-/

namespace DocumentDb.Text

namespace CaseRun

/-- Whether a code point is moved by the run. -/
def covers (run : CaseRun) (n : Nat) : Bool :=
  run.first ≤ n && n ≤ run.last && (n - run.first) % run.step == 0

end CaseRun

/-- The code point after the first run that covers it, if one does. -/
def moved (runs : List CaseRun) (c : Char) : Char :=
  match runs.find? (·.covers c.toNat) with
  | some run => Char.ofNat (c.toNat + run.shift).toNat
  | none => c

/-- The small letters of one character, without regard to its neighbours. -/
def smallLetter (c : Char) : List Char :=
  if c = '\u0130' then ['i', '\u0307'] else [moved smallLetterRuns c]

/-- The capitals of one character. -/
def capital (c : Char) : List Char :=
  match longCapitals.find? (·.1 == c.toNat) with
  | some (_, codes) => codes.map Char.ofNat
  | none => [moved capitalRuns c]

/-- Whether the nearest character that bears on case is a cased one. -/
def nextIsCased (text : List Char) : Bool :=
  match text.dropWhile (caseIgnorable.contains ·.toNat) with
  | [] => false
  | c :: _ => casedCharacters.contains c.toNat

/-- Small letters of a text whose characters before it, nearest first, are `before`. -/
def lowerFrom (before : List Char) : List Char → List Char
  | [] => []
  | c :: rest =>
    let small :=
      if c = 'Σ' then (if nextIsCased before && !nextIsCased rest then ['ς'] else ['σ'])
      else smallLetter c
    small ++ lowerFrom (c :: before) rest

/-- The text in small letters. -/
def lower (text : String) : String := String.ofList (lowerFrom [] text.toList)

/-- The text with its first character as a capital. -/
def capitalize (text : String) : String :=
  match text.toList with
  | [] => text
  | c :: rest => String.ofList (capital c ++ rest)

/-- The characters that differ from `c` only in case, `c` included. -/
def caseVariants (c : Char) : List Char :=
  match caseClasses.find? (·.contains c.toNat) with
  | some codes => codes.map Char.ofNat
  | none =>
    let small := match smallLetter c with
      | [s] => [s]
      | _ => []
    let large := match capital c with
      | [l] => [l]
      | _ => []
    c :: (small ++ large)

end DocumentDb.Text
