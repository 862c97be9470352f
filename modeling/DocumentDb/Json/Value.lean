import DocumentDb.Numeric.Digits

/-!
# JSON values

Values keep the order of object fields and the kind of numbers: a number is an integer or a double,
and `1` and `1.0` are different values. An object is a list of fields in which a key stands at most
once; `Object.put` keeps it so.
-/

namespace DocumentDb

/-- A number of a document. -/
inductive Number where
  /-- An integer that fits 64 bits, with or without sign. -/
  | int (n : Int)
  /-- Any other number, as the double it was read as. -/
  | double (x : Finite)
deriving DecidableEq, Repr, Inhabited

/-- A JSON value. -/
inductive Value where
  | null
  | bool (b : Bool)
  | number (n : Number)
  | string (s : String)
  | array (items : List Value)
  | object (fields : List (String × Value))
deriving Repr, Inhabited

/-- The fields of an object, in their order. -/
abbrev Object := List (String × Value)

/-- A stored or returned document. -/
abbrev Document := Object

namespace Number

/-- The least and one more than the largest integer of a document. -/
def minInt : Int := -9223372036854775808

/-- One more than the largest integer of a document. -/
def intBound : Int := 18446744073709551616

/-- The double nearest to the value. -/
def toFinite : Number → Finite
  | int n => .ofInt n
  | double x => x

/-- The value of an integer that is not negative; a double has none, whole or not. -/
def toNat? : Number → Option Nat
  | int n => if n < 0 then none else some n.toNat
  | double _ => none

/-- The text of the number in a document. -/
def text : Number → String
  | int n => toString n
  | double x => x.text .document

end Number

namespace Value

/-- The number of a count. -/
def ofNat (n : Nat) : Value := .number (.int n)

/-- The name of the kind of a value, as messages give it. -/
def kindName : Value → String
  | null => "null"
  | bool _ => "boolean"
  | number _ => "number"
  | string _ => "string"
  | array _ => "array"
  | object _ => "object"

/-- Whether the value is `null`. -/
def isNull : Value → Bool
  | null => true
  | _ => false

/-- The text of a string. -/
def string? : Value → Option String
  | string s => some s
  | _ => none

/-- The items of an array. -/
def array? : Value → Option (List Value)
  | array items => some items
  | _ => none

/-- The fields of an object. -/
def object? : Value → Option Object
  | object fields => some fields
  | _ => none

/-- The value of an integer that is not negative. -/
def toNat? : Value → Option Nat
  | number n => n.toNat?
  | _ => none

end Value

namespace Object

/-- The value of a key. -/
def value? (fields : Object) (key : String) : Option Value :=
  match fields with
  | [] => none
  | (name, value) :: rest => if name = key then some value else value? rest key

/-- Whether a key is present. -/
def has (fields : Object) (key : String) : Bool := fields.any (·.1 = key)

/-- The keys in their order. -/
def keys (fields : Object) : List String := fields.map (·.1)

/-- Set the value of a key: in its place if it is present, else at the end. -/
def put (fields : Object) (key : String) (value : Value) : Object :=
  match fields with
  | [] => [(key, value)]
  | (name, old) :: rest =>
    if name = key then (key, value) :: rest else (name, old) :: put rest key value

/-- Set the values of several keys, one after the other. -/
def putAll (fields : Object) (others : Object) : Object :=
  others.foldl (fun fields field => put fields field.1 field.2) fields

/-- The object without a key. -/
def without (fields : Object) (key : String) : Object := fields.filter (·.1 ≠ key)

end Object

/-- The value of a key of an object; other values have no keys. -/
def Value.field? (value : Value) (key : String) : Option Value :=
  match value with
  | .object fields => Object.value? fields key
  | _ => none

end DocumentDb
