import DocumentDb.Calendar.Instant
import DocumentDb.Document.Id
import DocumentDb.Pattern.Parser

/-!
# Rules of fields

The types that single values can have and the rules that a declaration may add to a type.
-/

namespace DocumentDb

/-- The type of a single value. -/
inductive ScalarKind where
  | string
  | number
  | boolean
  | date
  | any
deriving DecidableEq, Repr, Inhabited

namespace ScalarKind

/-- The name of a type in declarations and messages. -/
def name : ScalarKind → String
  | string => "String"
  | number => "Number"
  | boolean => "Boolean"
  | date => "Date"
  | any => "Any"

end ScalarKind

/-- The types by which `anyOf` may accept a value. -/
inductive ValueType where
  | string
  | number
  | boolean
  | date
  | array
  | object
deriving DecidableEq, Repr, Inhabited

namespace ValueType

/-- The name of a type in declarations. -/
def name : ValueType → String
  | string => "String"
  | number => "Number"
  | boolean => "Boolean"
  | date => "Date"
  | array => "Array"
  | object => "Object"

/-- The type of a name. -/
def ofName? (name : String) : Option ValueType :=
  [string, number, boolean, date, array, object].find? (·.name == name)

end ValueType

/-- An entry of `anyOf`. -/
inductive Choice where
  /-- Any value of a type. -/
  | type (type : ValueType)
  /-- One value. -/
  | value (value : Value)
deriving Inhabited

/-- The rules of a field or of the elements of a list. -/
structure Rules where
  required : Bool := false
  /-- What an absent field becomes. -/
  fallback : Option Value := none
  least : Option Finite := none
  most : Option Finite := none
  /-- The least number of characters or items. -/
  minLength : Option Nat := none
  maxLength : Option Nat := none
  /-- The only values that are allowed. -/
  listed : Option (List Value) := none
  trim : Bool := false
  lowercase : Bool := false
  capitalize : Bool := false
  /-- Dates must be later than this. -/
  startsAfter : Option Instant := none
  /-- Dates must be earlier than this. -/
  startsBefore : Option Instant := none
  choices : Option (List Choice) := none
  pattern : Option Pattern := none
deriving Inhabited

end DocumentDb
