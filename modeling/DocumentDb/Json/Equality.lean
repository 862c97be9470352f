import DocumentDb.Json.Value

/-!
# Equality of values

Two equalities that differ in numbers only. Both compare arrays item by item and objects key by key
without regard to the order of fields. `Value.same` takes `1` and `1.0` for the same number,
`Value.identical` does not.
-/

namespace DocumentDb

/-- Whether two numbers have the same value as doubles. -/
def Number.same (x y : Number) : Bool := x.toFinite.order y.toFinite == .eq

/-- Whether two numbers are of the same kind and have the same value; the two zeros among the
doubles have. -/
def Number.identical : Number → Number → Bool
  | .int m, .int n => m == n
  | .double x, .double y => x.order y == .eq
  | _, _ => false

namespace Value

mutual

/-- Equality of values, given when two numbers are equal. -/
def agrees (numbers : Number → Number → Bool) : Value → Value → Bool
  | .null, .null => true
  | .bool a, .bool b => a == b
  | .number m, .number n => numbers m n
  | .string s, .string t => s == t
  | .array xs, .array ys => xs.length == ys.length && itemsAgree numbers xs ys
  | .object xs, .object ys => xs.length == ys.length && fieldsAgree numbers xs ys
  | _, _ => false

/-- Whether the items of two lists are equal as far as both go. -/
def itemsAgree (numbers : Number → Number → Bool) : List Value → List Value → Bool
  | x :: xs, y :: ys => agrees numbers x y && itemsAgree numbers xs ys
  | _, _ => true

/-- Whether each field has an equal one of the same key among `ys`. -/
def fieldsAgree (numbers : Number → Number → Bool) : List (String × Value) → Object → Bool
  | [], _ => true
  | (key, x) :: xs, ys =>
    (match Object.value? ys key with
      | some y => agrees numbers x y
      | none => false) && fieldsAgree numbers xs ys

end

/-- Equality that does not tell the kinds of numbers apart. -/
def same : Value → Value → Bool := agrees Number.same

/-- Equality that tells the kinds of numbers apart. -/
def identical : Value → Value → Bool := agrees Number.identical

end Value

end DocumentDb
