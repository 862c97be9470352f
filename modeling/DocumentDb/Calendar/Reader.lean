import DocumentDb.Calendar.Instant
import DocumentDb.Numeric.Reader
import DocumentDb.Text.Blank

/-!
# Reading instants

Three forms are read. The first has a date, a time and an offset from universal time, all fields in
full width. The second has no offset and stands for universal time, and the third is a date alone
and stands for its beginning; in these two a field may have fewer digits, blanks may stand before
it, and a year may carry a sign and then any number of digits.
-/

namespace DocumentDb.Calendar

/-- A reader of a part at the beginning of a text. -/
abbrev Reader (α : Type) := List Char → Option (α × List Char)

/-- A given character. -/
def readChar (c : Char) : List Char → Option (List Char)
  | d :: rest => if c = d then some rest else none
  | [] => none

/-- The largest number that is read for a field. -/
def numberLimit : Nat := 9223372036854775807

/-- A number of at least `least` and at most `most` digits. -/
def readNumber (least most : Nat) : Reader Nat := fun text =>
  let digits := (text.take most).takeWhile isDigit
  if digits.length < least then none
  else
    let n := digitsValue digits
    if n > numberLimit then none else some (n, text.drop digits.length)

/-- A number of any length behind a sign, or of at most four digits without one. -/
def readYear : Reader Int := fun text =>
  match text.dropWhile Text.isBlank with
  | '-' :: rest => (readNumber 1 rest.length rest).map fun (n, rest) => (-(n : Int), rest)
  | '+' :: rest => (readNumber 1 rest.length rest).map fun (n, rest) => ((n : Int), rest)
  | rest => (readNumber 1 4 rest).map fun (n, rest) => ((n : Int), rest)

/-- A number of one or two digits, blanks before it passed over. -/
def readField : Reader Nat := fun text => readNumber 1 2 (text.dropWhile Text.isBlank)

/-- The nanoseconds of a fraction: its first nine digits count, those behind them are passed. -/
def readNanos : Reader Nat := fun text => do
  let (n, rest) ← readNumber 1 9 text
  let width := text.length - rest.length
  pure (n * Nat.pow 10 (9 - width), rest.dropWhile isDigit)

/-- A fraction of a second, if one follows. -/
def readFraction : Reader Nat
  | '.' :: rest => readNanos rest
  | rest => some (0, rest)

/-- The instant of a date and a time whose fields are in range. -/
def instant? (date : Date) (hour minute second nanos : Nat) : Option Instant :=
  if hour < 24 && minute < 60 && second ≤ 60 then some (.ofParts date hour minute second nanos)
  else none

/-- An offset from universal time in seconds: `Z`, or a sign, hours and minutes. -/
def readOffset : Reader Int
  | 'Z' :: rest | 'z' :: rest => some (0, rest)
  | sign :: rest => do
    if sign ≠ '+' && sign ≠ '-' && sign ≠ '\u2212' then none
    let (hours, rest) ← readNumber 2 2 rest
    let rest ← readChar ':' rest
    let (minutes, rest) ← readNumber 2 2 rest
    if hours < 24 && minutes < 60 then
      let seconds : Int := (hours * 3600 + minutes * 60 : Nat)
      pure (if sign = '+' then seconds else -seconds, rest)
    else none
  | [] => none

/-- A date and a time with an offset, all fields in full width. -/
def readWithOffset (text : List Char) : Option Instant := do
  let (year, rest) ← readNumber 4 4 text
  let rest ← readChar '-' rest
  let (month, rest) ← readNumber 2 2 rest
  let rest ← readChar '-' rest
  let (day, rest) ← readNumber 2 2 rest
  let rest ← match rest with
    | c :: rest => if c = 'T' || c = 't' || c = ' ' then some rest else none
    | [] => none
  let (hour, rest) ← readNumber 2 2 rest
  let rest ← readChar ':' rest
  let (minute, rest) ← readNumber 2 2 rest
  let rest ← readChar ':' rest
  let (second, rest) ← readNumber 2 2 rest
  let (nanos, rest) ← readFraction rest
  let (offset, rest) ← readOffset rest
  if !rest.isEmpty then none
  let date ← Date.ofParts? year month day
  let civil ← instant? date hour minute second nanos
  pure { civil with seconds := civil.seconds - offset }

/-- The date at the beginning of a text. -/
def readDate : Reader Date := fun text => do
  let (year, rest) ← readYear text
  let rest ← readChar '-' rest
  let (month, rest) ← readField rest
  let rest ← readChar '-' rest
  let (day, rest) ← readField rest
  let date ← Date.ofParts? year month day
  pure (date, rest)

/-- A date and a time in universal time. -/
def readUniversal (text : List Char) : Option Instant := do
  let (date, rest) ← readDate text
  let rest ← readChar 'T' rest
  let (hour, rest) ← readField rest
  let rest ← readChar ':' rest
  let (minute, rest) ← readField rest
  let rest ← readChar ':' rest
  let (second, rest) ← readField rest
  let (nanos, rest) ← readFraction rest
  if !rest.isEmpty then none
  instant? date hour minute second nanos

/-- The beginning of a date. -/
def readMidnight (text : List Char) : Option Instant := do
  let (date, rest) ← readDate text
  if !rest.isEmpty then none
  instant? date 0 0 0 0

/-- The instant that a whole text denotes, blanks at its ends cut off. -/
def readInstant? (text : String) : Option Instant :=
  let chars := Text.trimChars text.toList
  (readWithOffset chars).orElse fun _ =>
    (readUniversal chars).orElse fun _ => readMidnight chars

end DocumentDb.Calendar
