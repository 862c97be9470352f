import DocumentDb.Json.Value
import DocumentDb.Numeric.Reader

/-!
# Reading JSON text

A text is read to one value or refused as a whole. Integers that fit 64 bits stay integers. Other
numbers become doubles by scaling: the digits as one integer, as far as they fit 64 bits, are
multiplied or divided by a power of ten, each step rounded; a number beyond the doubles is refused.
Arrays and objects nest less than `depthLimit` deep. `readRepeated?` keeps fields with the same key
as they were written; `read?` lets the last value stand at the first place.

The readers take the characters and return what they leave. The fuel is a bound on the number of
values and items that are still read, and the length of the text is always enough.
-/

namespace DocumentDb.Json

/-- How deep arrays and objects may not nest. -/
def depthLimit : Nat := 128

/-- A reader of a part at the beginning of a text. -/
abbrev Reader (α : Type) := List Char → Option (α × List Char)

/-- Whether a character may stand between tokens. -/
def isSpace (c : Char) : Bool := c = ' ' || c = '\n' || c = '\t' || c = '\r'

/-- The text behind leading white space. -/
def skipSpace (text : List Char) : List Char := text.dropWhile isSpace

/-! ### Numbers -/

/-- The double nearest to a power of ten. -/
def powerOfTen (n : Nat) : Double := .ofRatio false (Nat.pow 10 n) 1

/-- The rounded product of two doubles. -/
def product : Double → Double → Double
  | .finite x, .finite y =>
    .ofRatio false (x.ratio.1 * y.ratio.1) (x.ratio.2 * y.ratio.2)
  | _, _ => .infinite false

/-- The rounded quotient of two doubles. -/
def quotient : Double → Double → Double
  | .finite x, .finite y =>
    .ofRatio false (x.ratio.1 * y.ratio.2) (x.ratio.2 * y.ratio.1)
  | _, _ => .infinite false

/-- The largest exponent whose power of ten is a double. -/
def maxPower : Nat := 308

/-- The double of `digits * 10 ^ exponent`, found by scaling; none beyond the largest double. A
double has no more than two steps to zero, which bounds the divisions. -/
def scaled (digits : Nat) (exponent : Int) : Option Finite :=
  match go 3 (.ofRatio false digits 1) exponent with
  | .finite x => some x
  | _ => none
where
  go : Nat → Double → Int → Double
    | 0, x, _ => x
    | fuel + 1, x, exponent =>
      if exponent.natAbs ≤ maxPower then
        if exponent ≥ 0 then product x (powerOfTen exponent.toNat)
        else quotient x (powerOfTen exponent.natAbs)
      else if x = .finite .zero then x
      else if exponent ≥ 0 then .infinite false
      else go fuel (quotient x (powerOfTen maxPower)) (exponent + maxPower)

/-- Take digits as long as the number they make fits 64 bits. -/
def takeDigits (start : Nat) : List Char → Nat × List Char
  | [] => (start, [])
  | c :: rest =>
    if isDigit c && start * 10 + digitValue c < wordBound then
      takeDigits (start * 10 + digitValue c) rest
    else (start, c :: rest)

/-- A double with a sign. -/
def signed (negative : Bool) (x : Finite) : Number := .double { x with negative }

/-- The largest exponent that is read as written. -/
def maxExponent : Nat := 2147483647

/-- The number of digits and of the exponent that follows them, if one does. -/
def readExponentPart (negative : Bool) (digits : Nat) (exponent : Int) : Reader Number
  | c :: rest =>
    if c = 'e' || c = 'E' then
      let (minus, rest) := splitSign rest
      let power := rest.takeWhile isDigit
      let rest := rest.dropWhile isDigit
      if power.isEmpty then none
      else if digitsValue power > maxExponent then
        if digits ≠ 0 && !minus then none else some (signed negative .zero, rest)
      else
        let power : Int := digitsValue power
        let exponent := if minus then exponent - power else exponent + power
        (scaled digits exponent).map fun x => (signed negative x, rest)
    else (scaled digits exponent).map fun x => (signed negative x, c :: rest)
  | [] => (scaled digits exponent).map fun x => (signed negative x, [])

/-- The number of digits, of which `exponent` were passed over, and of the fraction behind the
point. A fraction whose first digit would not fit needs no digit. -/
def readFraction (negative : Bool) (digits : Nat) (exponent : Int) : Reader Number := fun text =>
  let (all, rest) := takeDigits digits text
  let taken := text.length - rest.length
  match rest with
  | c :: _ =>
    if isDigit c then
      readExponentPart negative all (exponent - taken) (rest.dropWhile isDigit)
    else if taken = 0 then none
    else readExponentPart negative all (exponent - taken) rest
  | [] => if taken = 0 then none else readExponentPart negative all (exponent - taken) []

/-- The number behind an optional minus sign: an integer unless a fraction or an exponent follows
or it does not fit 64 bits. -/
def readMagnitude (negative : Bool) : Reader Number := fun text =>
  let whole : Option (Nat × List Char) := match text with
    | '0' :: rest =>
      if (rest.head?.map isDigit).getD false then none else some (0, rest)
    | c :: rest => if isDigit c then some (takeDigits (digitValue c) rest) else none
    | [] => none
  whole.bind fun (digits, rest) =>
    let passed := rest.takeWhile isDigit
    let behind := rest.dropWhile isDigit
    match behind with
    | '.' :: fraction => readFraction negative digits passed.length fraction
    | c :: tail =>
      if c = 'e' || c = 'E' || !passed.isEmpty then
        readExponentPart negative digits passed.length (c :: tail)
      else some (integer digits, behind)
    | [] =>
      if passed.isEmpty then some (integer digits, [])
      else readExponentPart negative digits passed.length []
where
  integer (digits : Nat) : Number :=
    if !negative then .int digits
    else if digits = 0 || digits > 9223372036854775808 then .double (.nearest true digits 1)
    else .int (-digits)

/-- A number. -/
def readNumber : Reader Number
  | '-' :: rest => readMagnitude true rest
  | text => readMagnitude false text

/-! ### Strings -/

/-- The value of a hexadecimal digit of either case. -/
def hexValue? (c : Char) : Option Nat :=
  if '0' ≤ c && c ≤ '9' then some (c.toNat - 48)
  else if 'a' ≤ c && c ≤ 'f' then some (c.toNat - 87)
  else if 'A' ≤ c && c ≤ 'F' then some (c.toNat - 55)
  else none

/-- Four hexadecimal digits. -/
def readHex : Reader Nat
  | a :: b :: c :: d :: rest => do
    let a ← hexValue? a
    let b ← hexValue? b
    let c ← hexValue? c
    let d ← hexValue? d
    pure (((a * 16 + b) * 16 + c) * 16 + d, rest)
  | _ => none

/-- A character written by its code, in two halves if it lies beyond 16 bits. -/
def readCode : Reader Char := fun text => do
  let (code, rest) ← readHex text
  if 0xDC00 ≤ code && code ≤ 0xDFFF then none
  else if 0xD800 ≤ code && code ≤ 0xDBFF then
    match rest with
    | '\\' :: 'u' :: rest =>
      let (low, rest) ← readHex rest
      if 0xDC00 ≤ low && low ≤ 0xDFFF then
        pure (Char.ofNat (0x10000 + (code - 0xD800) * 0x400 + (low - 0xDC00)), rest)
      else none
    | _ => none
  else pure (Char.ofNat code, rest)

/-- The character of a one-letter escape. -/
def simpleEscape? (c : Char) : Option Char :=
  match c with
  | '"' => some '"'
  | '\\' => some '\\'
  | '/' => some '/'
  | 'b' => some (Char.ofNat 8)
  | 'f' => some (Char.ofNat 12)
  | 'n' => some '\n'
  | 'r' => some '\r'
  | 't' => some '\t'
  | _ => none

/-- The rest of a string behind its opening quote; `done` are the characters before it, the last
one first. -/
def readString : Nat → List Char → Reader String
  | 0, _, _ => none
  | fuel + 1, done, text =>
    match text with
    | [] => none
    | '"' :: rest => some (String.ofList done.reverse, rest)
    | '\\' :: 'u' :: rest => do
      let (c, rest) ← readCode rest
      readString fuel (c :: done) rest
    | '\\' :: c :: rest => do
      let c ← simpleEscape? c
      readString fuel (c :: done) rest
    | c :: rest => if c.toNat < 32 then none else readString fuel (c :: done) rest

/-! ### Values -/

/-- The text behind a given word, if it begins with it. -/
def readWord (word : List Char) (value : Value) : Reader Value := fun text =>
  if word.isPrefixOf text then some (value, text.drop word.length) else none

mutual

/-- A value, white space before it passed over. -/
def readValue : Nat → Nat → Reader Value
  | 0, _, _ => none
  | fuel + 1, depth, text =>
    match skipSpace text with
    | [] => none
    | 'n' :: rest => readWord ['u', 'l', 'l'] .null rest
    | 't' :: rest => readWord ['r', 'u', 'e'] (.bool true) rest
    | 'f' :: rest => readWord ['a', 'l', 's', 'e'] (.bool false) rest
    | '"' :: rest => (readString (rest.length + 1) [] rest).map fun (s, rest) => (.string s, rest)
    | '[' :: rest =>
      if depth ≤ 1 then none
      else match skipSpace rest with
        | ']' :: rest => some (.array [], rest)
        | rest => readItems fuel (depth - 1) [] rest
    | '\x7b' :: rest =>
      if depth ≤ 1 then none
      else match skipSpace rest with
        | '\x7d' :: rest => some (.object [], rest)
        | rest => readFields fuel (depth - 1) [] rest
    | rest => (readNumber rest).map fun (n, rest) => (.number n, rest)

/-- The items of an array that are still to come; `done` are those before, the last one first. -/
def readItems : Nat → Nat → List Value → Reader Value
  | 0, _, _, _ => none
  | fuel + 1, depth, done, text =>
    match readValue fuel depth text with
    | none => none
    | some (item, rest) =>
      match skipSpace rest with
      | ',' :: rest => readItems fuel depth (item :: done) rest
      | ']' :: rest => some (.array (item :: done).reverse, rest)
      | _ => none

/-- The fields of an object that are still to come; `done` are those before, the last one first. -/
def readFields : Nat → Nat → Object → Reader Value
  | 0, _, _, _ => none
  | fuel + 1, depth, done, text =>
    match skipSpace text with
    | '"' :: rest =>
      match readString (rest.length + 1) [] rest with
      | none => none
      | some (key, rest) =>
        match skipSpace rest with
        | ':' :: rest =>
          match readValue fuel depth rest with
          | none => none
          | some (value, rest) =>
            match skipSpace rest with
            | ',' :: rest => readFields fuel depth ((key, value) :: done) rest
            | '\x7d' :: rest => some (.object ((key, value) :: done).reverse, rest)
            | _ => none
        | _ => none
    | _ => none

end

/-- The value of a whole text, in which the keys of an object may repeat. -/
def readRepeated? (text : String) : Option Value :=
  let chars := text.toList
  match readValue (2 * chars.length + 2) depthLimit chars with
  | some (value, rest) => if (skipSpace rest).isEmpty then some value else none
  | none => none

mutual

/-- The value with each key of an object once: the last value at the first place. -/
def distinct : Value → Value
  | .array items => .array (distinctItems items)
  | .object fields => .object (distinctFields [] fields)
  | value => value

/-- The items of an array with each key once. -/
def distinctItems : List Value → List Value
  | [] => []
  | item :: rest => distinct item :: distinctItems rest

/-- The fields of an object behind those in `done`, each key once. -/
def distinctFields (done : Object) : List (String × Value) → Object
  | [] => done
  | (key, value) :: rest => distinctFields (done.put key (distinct value)) rest

end

/-- The value of a whole text. -/
def read? (text : String) : Option Value := (readRepeated? text).map distinct

end DocumentDb.Json
