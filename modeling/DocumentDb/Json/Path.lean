import DocumentDb.Json.Value
import DocumentDb.Numeric.Reader
import DocumentDb.Text.Segment

/-!
# Dotted paths into values

A path is followed segment by segment: keys of objects, positions of arrays counted from zero, and
`length`, which is the number of items of an array or of characters of a string.
-/

namespace DocumentDb

/-- The pseudo-field with the size of an array or string. -/
def lengthKey : String := "length"

namespace Value

/-- The value behind one segment of a path. -/
def step? (value : Value) (segment : String) : Option Value :=
  match value with
  | .object fields => Object.value? fields segment
  | .array items =>
    match readNatBelow? wordBound segment with
    | some index => items[index]?
    | none => if segment = lengthKey then some (.ofNat items.length) else none
  | .string s => if segment = lengthKey then some (.ofNat s.length) else none
  | _ => none

/-- The value behind several segments. -/
def follow? (value : Value) : List String → Option Value
  | [] => some value
  | segment :: rest =>
    match value.step? segment with
    | some next => next.follow? rest
    | none => none

/-- The value at a dotted path. -/
def atPath? (value : Value) (path : String) : Option Value :=
  value.follow? (Text.splitAt '.' path)

end Value

end DocumentDb
