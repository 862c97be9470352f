import DocumentDb.Json.Path
import DocumentDb.Query.Expression

/-!
# Comparing values

A filter sees of a value only whether it is missing, null, a truth value, a number or a text;
arrays and objects compare with nothing. `=` converts between numbers and numeric texts and does not
tell null from a missing value, `===` converts nothing. The order of sorting is one of its own: null
and missing values come first and values of different kinds are not ordered.
-/

namespace DocumentDb

/-- What a comparison sees of a value. -/
inductive Operand where
  | missing
  | null
  | bool (b : Bool)
  | number (x : Double)
  | text (s : String)
  | other
deriving DecidableEq, Repr, Inhabited

namespace Operand

/-- What a comparison sees of a value that may be missing. -/
def ofValue : Option Value → Operand
  | none => missing
  | some .null => null
  | some (.bool b) => bool b
  | some (.number n) => number (.finite n.toFinite)
  | some (.string s) => text s
  | some _ => other

/-- What a comparison sees of a literal. -/
def ofLiteral : Literal → Operand
  | .bool b => bool b
  | .null => null
  | .undefined => missing
  | .number x => number x
  | .text s => text s

/-- Whether the operand is null or missing. -/
def isNull : Operand → Bool
  | missing => true
  | null => true
  | _ => false

/-- The number of a number or of a numeric text. -/
def number? : Operand → Option Double
  | number x => some x
  | text s => readDouble? (Text.trim s)
  | _ => none

/-- Whether two operands are equal as numbers. -/
def sameNumber (a b : Operand) : Bool :=
  match a.number?, b.number? with
  | some x, some y => x.same y
  | _, _ => false

/-- Equality that converts between numbers and numeric texts. -/
def looseEq (a b : Operand) : Bool :=
  if a.isNull || b.isNull then a.isNull && b.isNull
  else match a, b with
    | bool p, bool q => p == q
    | text s, text t => s == t
    | number _, _ => sameNumber a b
    | _, number _ => sameNumber a b
    | _, _ => false

/-- Equality without conversions. -/
def strictEq (a b : Operand) : Bool :=
  match a, b with
  | missing, missing => true
  | null, null => true
  | bool p, bool q => p == q
  | number x, number y => x.same y
  | text s, text t => s == t
  | _, _ => false

/-- The order of two operands, if they have one: two texts are ordered as numbers if both are
numeric, and else by their characters. -/
def order? (a b : Operand) : Option Ordering :=
  match a, b with
  | text s, text t =>
    match a.number?, b.number? with
    | some x, some y => x.order? y
    | _, _ => some (compare s t)
  | bool p, bool q => some (compare p q)
  | _, _ =>
    match a.number?, b.number? with
    | some x, some y => x.order? y
    | _, _ => none

/-- The order of sorting. -/
def sortOrder (a b : Operand) : Ordering :=
  match a.isNull, b.isNull with
  | true, true => .eq
  | true, false => .lt
  | false, true => .gt
  | false, false =>
    match a, b with
    | number x, number y => (x.order? y).getD .eq
    | text s, text t => compare s t
    | bool p, bool q => compare p q
    | _, _ => .eq

end Operand

/-- Whether two operands are in the relation of an operator. -/
def Operator.holds (operator : Operator) (a b : Operand) : Bool :=
  match operator with
  | .eq => a.looseEq b
  | .strictEq => a.strictEq b
  | .ne => !a.looseEq b
  | .gt => a.order? b == some .gt
  | .ge => a.order? b == some .gt || a.order? b == some .eq
  | .lt => a.order? b == some .lt
  | .le => a.order? b == some .lt || a.order? b == some .eq

/-- Compare a value that may be missing with a literal. -/
def compareValue (value? : Option Value) (operator : Operator) (literal : Literal) : Bool :=
  operator.holds (.ofValue value?) (.ofLiteral literal)

namespace Expression

/-- Whether the expression holds of a value. -/
def holds (e : Expression) (value : Value) : Bool :=
  compareValue (value.atPath? e.path) e.operator e.literal

/-- Whether the expression holds of an array element. -/
def holdsOfItem (e : Expression) (item : Value) : Bool :=
  if e.addressesItem then compareValue (some item) e.operator e.literal else e.holds item

end Expression

end DocumentDb
