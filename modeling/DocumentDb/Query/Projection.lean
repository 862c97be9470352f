import DocumentDb.Document.Id
import DocumentDb.Text.Segment

/-!
# Projection of documents

`include` keeps the fields at given dotted paths and `exclude` drops them. Both descend into objects
only, and both keep the id of a document.
-/

namespace DocumentDb

/-- The paths below a key. -/
def pathsBelow (key : String) (paths : List String) : List String :=
  paths.filterMap (Text.afterStart? (key ++ "."))

/-- Whether a field is the id of a document rather than a field inside an object. -/
def isRootId (top : Bool) (key : String) : Bool := top && key = idKey

mutual

/-- What is kept of a field when the fields at given paths are included. -/
def includeField (paths : List String) (top : Bool) (key : String) : Value → Option Value
  | .object inner =>
    if isRootId top key || paths.contains key then some (.object inner)
    else
      let below := pathsBelow key paths
      if below.isEmpty then none else some (.object (includePaths below false inner))
  | value => if isRootId top key || paths.contains key then some value else none

/-- The fields of an object at given paths. -/
def includePaths (paths : List String) (top : Bool) : List (String × Value) → Object
  | [] => []
  | (key, value) :: rest =>
    match includeField paths top key value with
    | some kept => (key, kept) :: includePaths paths top rest
    | none => includePaths paths top rest

end

mutual

/-- What is left of the value of a field when the fields at given paths are dropped. -/
def excludeInside (paths : List String) (key : String) : Value → Value
  | .object inner =>
    let below := pathsBelow key paths
    if below.isEmpty then .object inner else .object (excludePaths below false inner)
  | value => value

/-- An object without the fields at given paths. A path with a point addresses no field here. -/
def excludePaths (paths : List String) (top : Bool) : List (String × Value) → Object
  | [] => []
  | (key, value) :: rest =>
    if !isRootId top key && !key.contains '.' && paths.contains key then
      excludePaths paths top rest
    else (key, excludeInside paths key value) :: excludePaths paths top rest

end

namespace Object

/-- The document with the fields at given paths only. -/
def keeping (document : Document) (paths : List String) : Document :=
  includePaths paths true document

/-- The document without the fields at given paths. -/
def dropping (document : Document) (paths : List String) : Document :=
  excludePaths paths true document

end Object

end DocumentDb
