import DocumentDb.Json.Value
import DocumentDb.Numeric.Reader
import DocumentDb.Text.Segment
import DocumentDb.Yaml.Node

/-!
# What YAML nodes stand for

A plain scalar stands for null, a truth value or a number if it is written like one, and for text
otherwise; all other scalars are text. A mapping has no key twice. As a JSON value, a mapping has
the texts of its keys, and numbers that JSON does not have are null.
-/

namespace DocumentDb.Yaml

/-- What a node stands for. -/
inductive Datum where
  | null
  | bool (b : Bool)
  | int (n : Int)
  | float (x : Double)
  | text (s : String)
  | sequence (items : List Datum)
  | mapping (entries : List (Datum × Datum))
deriving Inhabited

/-! ### Plain scalars -/

/-- Whether a plain scalar is a word for null. -/
def isNullWord (text : String) : Bool :=
  text == "" || text == "~" || text == "null" || text == "Null" || text == "NULL"

/-- The truth value that a plain scalar is a word for. -/
def boolWord? (text : String) : Option Bool :=
  if text = "true" || text = "True" || text = "TRUE" then some true
  else if text = "false" || text = "False" || text = "FALSE" then some false
  else none

/-- The number that digits of a base write. -/
def digitsOf? (base : Nat) (digits : List Char) : Option Nat := do
  if digits.isEmpty then none
  let values ← digits.mapM fun c => (hexDigit? c).filter (· < base)
  pure (values.foldl (fun n digit => n * base + digit) 0)

/-- The number of unsigned digits, which may be marked as hexadecimal, octal or binary. -/
def magnitude? (text : List Char) : Option Nat :=
  match text with
  | '0' :: 'x' :: digits => digitsOf? 16 digits
  | '0' :: 'o' :: digits => digitsOf? 8 digits
  | '0' :: 'b' :: digits => digitsOf? 2 digits
  | digits => digitsOf? 10 digits

/-- Whether a scalar has only digits, but more than one, the first of them a zero; it is text. -/
def isPaddedNumber (text : String) : Bool :=
  match (splitSign text.toList).2 with
  | '0' :: c :: rest => (c :: rest).all isDigit
  | _ => false

/-- The integer that a plain scalar writes, whatever its size. -/
def wholeNumber? (text : String) : Option Int :=
  if isPaddedNumber text then none
  else match text.toList with
    | '-' :: rest => (magnitude? rest).map fun n => -(n : Int)
    | '+' :: rest => (magnitude? rest).map fun n => (n : Int)
    | rest => (magnitude? rest).map fun n => (n : Int)

/-- The double that a plain scalar writes. -/
def double? (text : String) : Option Double :=
  let unsigned := match text.toList with
    | '+' :: rest => rest
    | rest => rest
  let bare := String.ofList unsigned
  if bare = ".inf" || bare = ".Inf" || bare = ".INF" then some (.infinite false)
  else if text = "-.inf" || text = "-.Inf" || text = "-.INF" then some (.infinite true)
  else if text = ".nan" || text = ".NaN" || text = ".NAN" then some .undefined
  else if unsigned.length < text.length && (unsigned.head? = some '+' || unsigned.head? = some '-')
    then none
  else match readDouble? bare with
    | some (.finite x) => if isPaddedNumber text then none else some (.finite x)
    | _ => none

/-- The least and one more than the largest integer of 128 bits. -/
def wideRange (n : Int) : Bool := -(Nat.pow 2 127 : Int) ≤ n && n < Nat.pow 2 128

/-- What a plain scalar stands for. An integer of more than 64 bits but at most 128 is refused;
beyond that it is a double. -/
def Datum.ofPlain? (text : String) : Option Datum :=
  if isNullWord text then some .null
  else match boolWord? text with
    | some b => some (.bool b)
    | none =>
      let other : Datum := match double? text with
        | some x => .float x
        | none => .text text
      match wholeNumber? text with
      | some n =>
        if Number.minInt ≤ n && n < Number.intBound then some (.int n)
        else if wideRange n then none
        else some other
      | none => some other

/-! ### Nodes -/

namespace Datum

/-- Whether two keys are the same. Collections are no keys of any use and are not compared. -/
def sameKey : Datum → Datum → Bool
  | null, null => true
  | bool a, bool b => a == b
  | int m, int n => m == n
  | float x, float y => x.same y || (x == .undefined && y == .undefined)
  | text s, text t => s == t
  | _, _ => false

mutual

/-- What a node stands for, unless it has a key twice or an integer that is too large. -/
def ofNode? : Node → Option Datum
  | .scalar plain content => if plain then ofPlain? content else some (.text content)
  | .sequence items => (ofNodes? items).map .sequence
  | .mapping entries => (ofEntries? [] entries).map .mapping

/-- What several nodes stand for. -/
def ofNodes? : List Node → Option (List Datum)
  | [] => some []
  | node :: rest => do
    let first ← ofNode? node
    let others ← ofNodes? rest
    pure (first :: others)

/-- What entries stand for; their keys differ from each other and from those in `seen`. -/
def ofEntries? (seen : List Datum) : List (Node × Node) → Option (List (Datum × Datum))
  | [] => some []
  | (key, value) :: rest => do
    let key ← ofNode? key
    if seen.any (sameKey key) then none
    let value ← ofNode? value
    let others ← ofEntries? (key :: seen) rest
    pure ((key, value) :: others)

end

/-- The number of a finite double, and null for the others. -/
def doubleValue : Double → Value
  | .finite x => .number (.double x)
  | _ => .null

/-- The text of a key. -/
def keyText? : Datum → Option String
  | text s => some s
  | bool b => some (if b then "true" else "false")
  | int n => some (Number.int n).text
  | float (.finite x) => some (Number.double x).text
  | _ => none

mutual

/-- The JSON value, unless a key has no text. -/
def toValue? : Datum → Option Value
  | null => some .null
  | bool b => some (.bool b)
  | int n => some (.number (.int n))
  | float x => some (doubleValue x)
  | text s => some (.string s)
  | sequence items => (toValues? items).map .array
  | mapping entries => (toFields? [] entries).map .object

/-- The JSON values of several data. -/
def toValues? : List Datum → Option (List Value)
  | [] => some []
  | datum :: rest => do
    let first ← toValue? datum
    let others ← toValues? rest
    pure (first :: others)

/-- The fields of entries behind those in `done`; of keys with the same text the last one counts. -/
def toFields? (done : Object) : List (Datum × Datum) → Option Object
  | [] => some done
  | (key, datum) :: rest => do
    let name ← keyText? key
    let value ← toValue? datum
    toFields? (done.put name value) rest

end

end Datum

mutual

/-- A JSON value as a node: strings are quoted, and all else is plain. -/
def Node.ofValue : Value → Node
  | .null => .scalar true "null"
  | .bool b => .scalar true (if b then "true" else "false")
  | .number n => .scalar true n.text
  | .string s => .scalar false s
  | .array items => .sequence (Node.ofValues items)
  | .object fields => .mapping (Node.ofFields fields)

/-- Several JSON values as nodes. -/
def Node.ofValues : List Value → List Node
  | [] => []
  | value :: rest => Node.ofValue value :: Node.ofValues rest

/-- The fields of an object as entries. -/
def Node.ofFields : List (String × Value) → List (Node × Node)
  | [] => []
  | (key, value) :: rest => (.scalar false key, Node.ofValue value) :: Node.ofFields rest

end

end DocumentDb.Yaml
