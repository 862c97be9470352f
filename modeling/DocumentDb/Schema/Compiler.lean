import DocumentDb.Schema.Casting
import DocumentDb.Schema.Tree

/-!
# Compiling declarations

A declaration is the name of a type, an object with a `type` and its rules, a reference, an embedded
document, an object of further declarations, or an array around the declaration of its elements.
References and embedded documents name a collection, of which the compiler has to know the kind of
id only; they may stand below one array at most.
-/

namespace DocumentDb

namespace Declaration

/-- The key of an embedded document's collection. -/
def schemaKey : String := "schema"

/-- The key of a type name. -/
def typeKey : String := "type"

/-- The key by which a field becomes required. -/
def requiredKey : String := "required"

/-- The type names of declarations. -/
inductive Marker where
  | scalar (kind : ScalarKind)
  | array
  | incr
  | uid
deriving DecidableEq, Repr, Inhabited

namespace Marker

/-- The name of a type. -/
def name : Marker → String
  | scalar kind => kind.name
  | array => "Array"
  | incr => IdKind.incr.name
  | uid => IdKind.uid.name

/-- The type of a name. -/
def ofName? (name : String) : Option Marker :=
  [scalar .string, scalar .number, scalar .boolean, scalar .date, scalar .any, array, incr,
    uid].find? (·.name == name)

/-- The options that a type takes. -/
def options : Marker → List String
  | scalar .string =>
    ["required", "default", "minLength", "maxLength", "enum", "trim", "lowercase", "capitalize",
      "validate"]
  | scalar .number => ["required", "default", "min", "max", "enum", "validate"]
  | scalar .boolean => ["required", "default"]
  | scalar .date => ["required", "default", "startsAfter", "startsBefore"]
  | scalar .any => ["required", "default", "anyOf"]
  | array => ["required", "default", "minLength", "maxLength", "enum"]
  | incr => ["max"]
  | uid => ["minLength", "maxLength"]

end Marker

/-- Fail with a fault of the declaration at a path. -/
def fault {α : Type} (path : String) (cause : SchemaFault) : Except Error α :=
  .error (.schema path cause)

/-! ### Options -/

/-- The value of an option that is true or false. -/
def flag (path key : String) (value : Value) : Except Error Bool :=
  match value with
  | .bool b => pure b
  | other => fault path (.notFlag key other)

/-- The value of an option that may be absent and is true or false. -/
def flagOption (path key : String) (options : Object) : Except Error Bool :=
  match Object.value? options key with
  | some value => flag path key value
  | none => pure false

/-- The value of an option that counts something. -/
def count (path key : String) (value : Value) : Except Error Nat :=
  match value.toNat? with
  | some n => pure n
  | none => fault path (.notCount key)

/-- The value of an option that counts something, or another number if it is absent. -/
def countOption (path key : String) (options : Object) (otherwise : Nat) : Except Error Nat :=
  match Object.value? options key with
  | some value => count path key value
  | none => pure otherwise

/-- The value of an option that is a number. -/
def number (path key : String) (value : Value) : Except Error Finite :=
  match value with
  | .number n => pure n.toFinite
  | other => fault path (.notNumber key other)

/-- The value of an option that is a date. -/
def date (path key : String) (value : Value) : Except Error Instant :=
  match value.string?.bind Calendar.readInstant? with
  | some t => pure t
  | none => fault path (.notDate key value)

/-- The value of an option that is a list. -/
def list (path key : String) (value : Value) : Except Error (List Value) :=
  match value with
  | .array items => pure items
  | _ => fault path (.notList key)

/-- The value of an option that is a pattern. -/
def pattern (path : String) (value : Value) : Except Error Pattern :=
  match value with
  | .string source => match Pattern.read? source with
    | some pattern => pure pattern
    | none => fault path .badPattern
  | _ => fault path .notPattern

/-- An entry of `anyOf`: the name of a type, or a value. -/
def choice (value : Value) : Choice :=
  match value.string?.bind ValueType.ofName? with
  | some type => .type type
  | none => .value value

/-- Set one option of the rules. -/
def setOption (path key : String) (value : Value) (rules : Rules) : Except Error Rules :=
  match key with
  | "required" => do pure { rules with required := ← flag path key value }
  | "default" => pure { rules with fallback := some value }
  | "min" => do pure { rules with least := some (← number path key value) }
  | "max" => do pure { rules with most := some (← number path key value) }
  | "minLength" => do pure { rules with minLength := some (← count path key value) }
  | "maxLength" => do pure { rules with maxLength := some (← count path key value) }
  | "enum" => do pure { rules with listed := some (← list path key value) }
  | "trim" => do pure { rules with trim := ← flag path key value }
  | "lowercase" => do pure { rules with lowercase := ← flag path key value }
  | "capitalize" => do pure { rules with capitalize := ← flag path key value }
  | "startsAfter" => do pure { rules with startsAfter := some (← date path key value) }
  | "startsBefore" => do pure { rules with startsBefore := some (← date path key value) }
  | "anyOf" => do pure { rules with choices := some ((← list path key value).map choice) }
  | "validate" => do pure { rules with pattern := some (← pattern path value) }
  | _ => pure rules

/-- Set the options one after the other; each must be one that the type takes. -/
def setOptions (path : String) (marker : Marker) : Object → Rules → Except Error Rules
  | [], rules => pure rules
  | (key, value) :: rest, rules =>
    if key = typeKey then setOptions path marker rest rules
    else if marker.options.contains key then do
      setOptions path marker rest (← setOption path key value rules)
    else fault path (.unknownTypeOption key marker.name path)

/-- The first of the listed values that is not of the type of a string or number field. -/
def misfit? (kind : ScalarKind) (listed : List Value) : Option Value :=
  match kind with
  | .string => listed.find? fun value => !ValueType.string.holds value
  | .number => listed.find? fun value => !ValueType.number.holds value
  | _ => none

/-- The listed values and the default are values of the type; the default obeys the rules. -/
def checkDeclared (path : String) (kind : ScalarKind) (rules : Rules) : Except Error Unit := do
  match rules.listed.bind (misfit? kind) with
  | some value => fault path (.listedType value kind.name)
  | none => pure ()
  match rules.fallback with
  | some value => match rules.cast path kind value with
    | .ok _ => pure ()
    | .error cause => fault path (.badDefault cause)
  | none => pure ()

/-- The rules that the options of a declaration give. -/
def rules (path : String) (marker : Marker) (options : Object) : Except Error Rules := do
  let rules ← setOptions path marker options {}
  if rules.lowercase && rules.capitalize then fault path .twoCases
  match rules.minLength, rules.maxLength with
  | some least, some most => if most < least then fault path .lengthsCross
  | _, _ => pure ()
  match marker with
  | .scalar kind => checkDeclared path kind rules
  | _ => pure ()
  pure rules

/-! ### Ids -/

/-- Every option is one of the allowed ones. -/
def checkKeys (path : String) (allowed : List String) : Object → Except Error Unit
  | [] => pure ()
  | (key, _) :: rest =>
    if allowed.contains key then checkKeys path allowed rest
    else fault path (.unknownOption key path)

/-- The shortest and longest random ids where a declaration gives no bounds. -/
def uidLengths : Nat × Nat := (6, 64)

/-- The rule of ids that a type name and its options give. -/
def idRule (name : String) (options : Object) : Except Error IdRule :=
  match Marker.ofName? name with
  | some .incr => do
    checkKeys idKey (typeKey :: Marker.incr.options) options
    match Object.value? options "max" with
    | none => pure .standard
    | some value => match value.toNat? with
      | some (most + 1) => pure (.incr (most + 1))
      | _ => fault idKey .badIdMax
  | some .uid => do
    checkKeys idKey (typeKey :: Marker.uid.options) options
    let least ← countOption idKey "minLength" options uidLengths.1
    let most ← countOption idKey "maxLength" options uidLengths.2
    if least = 0 || most < least then fault idKey (.badIdLengths least most)
    pure (.uid least most)
  | _ => fault idKey (.badIdType name)

/-- The rule of ids that a declaration gives. -/
def id (declaration : Value) : Except Error IdRule :=
  match declaration with
  | .string name => idRule name []
  | .object options => match Object.value? options typeKey with
    | some (.string name) => idRule name options
    | _ => fault idKey .badId
  | _ => fault idKey .badId

/-- The rule of ids of a collection with given declarations. -/
def idOf (declarations : Object) : Except Error IdRule :=
  match Object.value? declarations idKey with
  | some declaration => id declaration
  | none => pure .standard

/-! ### Fields -/

/-- The kinds of id of the collections of a schema. -/
abbrev Kinds := List (String × IdKind)

/-- The kind of id of a collection that a declaration names. -/
def target (kinds : Kinds) (path collection : String) : Except Error IdKind :=
  match kinds.lookup collection with
  | some kind => pure kind
  | none => fault path (.unknownCollection collection)

/-- The collection of an embedded document, and whether it is required. -/
def embedded (kinds : Kinds) (path : String) (options : Object) :
    Except Error (String × Bool) := do
  checkKeys path [schemaKey, requiredKey] options
  match Object.value? options schemaKey with
  | some (.string collection) =>
    discard (target kinds path collection)
    pure (collection, ← flagOption path requiredKey options)
  | _ => fault path .noSchemaName

/-- The kind of id that a type name in a reference stands for. -/
def refKind? (name : String) : Option IdKind :=
  if name = "Number" || name = IdKind.incr.name then some .incr
  else if name = "String" || name = IdKind.uid.name then some .uid
  else none

/-- The collection of a reference, the kind of its ids, and whether it is required. The collection
is named by `$ref`, or else by `collection`; then `$ref` gives the type of its ids. -/
def reference (kinds : Kinds) (path : String) (options : Object) :
    Except Error (String × IdKind × Bool) := do
  checkKeys path [refKey, collectionKey, requiredKey] options
  match Object.value? options refKey with
  | some (.string name) =>
    let (collection, declared?) ← match Object.value? options collectionKey with
      | some (.string collection) => match refKind? name with
        | some kind => pure (collection, some kind)
        | none => fault path (.badRefType name)
      | some other => fault path (.badRefCollection other)
      | none => pure (name, none)
    let kind ← target kinds path collection
    if declared?.getD kind ≠ kind then fault path (.refTypeDiffers collection)
    pure (collection, kind, ← flagOption path requiredKey options)
  | _ => fault path .noRefTarget

/-- At most one array stands around the declaration. -/
def checkDepth (path : String) (depth : Nat) : Except Error Unit :=
  if depth > 1 then fault path .tooDeep else pure ()

/-- The node of a type name and its options. -/
def typed (path name : String) (options : Object) : Except Error Node :=
  match Marker.ofName? name with
  | none => fault path (.unknownType name)
  | some .incr => fault path (.onlyForIds Marker.incr.name)
  | some .uid => fault path (.onlyForIds Marker.uid.name)
  | some .array => (rules path .array options).map .array
  | some (.scalar kind) => (rules path (.scalar kind) options).map (.scalar kind)

/-- The element that is declared by the name of a type alone. -/
def namedElement (path name : String) : Except Error Element :=
  match Marker.ofName? name with
  | some (.scalar kind) => pure (.scalar kind {})
  | some .array => pure (.list .any)
  | some marker => fault path (.notElement marker.name)
  | none => fault path (.unknownType name)

/-- The element that is declared by a type and its options. -/
def typedElement (path name : String) (options : Object) : Except Error Element :=
  match Marker.ofName? name with
  | some (.scalar kind) => (rules path (.scalar kind) options).map (.scalar kind)
  | _ => fault path (.notElement name)

mutual

/-- The node of a declaration that `depth` arrays stand around. -/
def node (kinds : Kinds) (path : String) (depth : Nat) : Value → Except Error Node
  | .string name => typed path name []
  | .array [] => pure (.array {})
  | .array items => (elements kinds path (depth + 1) items).map .list
  | .object options =>
    if Object.has options schemaKey then do
      checkDepth path depth
      let (collection, required) ← embedded kinds path options
      pure (.document collection required)
    else if Object.has options refKey then do
      checkDepth path depth
      let (collection, kind, required) ← reference kinds path options
      pure (.reference collection kind required)
    else match Object.value? options typeKey with
      | some (.string name) => typed path name options
      | some (.object _) | none => (fields kinds path depth options).map .nested
      | some other => fault path (.typeName other)
  | other => fault path (.unsupported other)

/-- The nodes of the declarations inside an object. -/
def fields (kinds : Kinds) (path : String) (depth : Nat) :
    List (String × Value) → Except Error Fields
  | [] => pure []
  | (name, declaration) :: rest => do
    let first ← node kinds (path ++ "." ++ name) depth declaration
    let others ← fields kinds path depth rest
    pure ((name, first) :: others)

/-- The element that the content of an array declares; `depth` counts the array. -/
def elements (kinds : Kinds) (path : String) (depth : Nat) : List Value → Except Error Element
  | [] => pure .any
  | [item] => element kinds path depth item
  | _ => fault path .manyElements

/-- The element of a declaration. -/
def element (kinds : Kinds) (path : String) (depth : Nat) : Value → Except Error Element
  | .string name => namedElement path name
  | .array inner => (elements kinds path (depth + 1) inner).map .list
  | .object options =>
    if Object.has options refKey then do
      checkDepth path depth
      let (collection, kind, _) ← reference kinds path options
      pure (.reference collection kind)
    else if Object.has options schemaKey then do
      checkDepth path depth
      let (collection, _) ← embedded kinds path options
      pure (.document collection)
    else match Object.value? options typeKey with
      | some (.string name) => typedElement path name options
      | _ => (fields kinds path depth options).map .object
  | other => fault path (.unsupportedElement other)

end

/-- The nodes of the declarations of a collection, the id left out. -/
def topFields (kinds : Kinds) : Object → Except Error Fields
  | [] => pure []
  | (name, declaration) :: rest =>
    if name = idKey then topFields kinds rest
    else do
      let first ← node kinds name 0 declaration
      let others ← topFields kinds rest
      pure ((name, first) :: others)

/-- The schema of a collection. -/
def tree (kinds : Kinds) (collection : String) (settings : Settings) (declarations : Object) :
    Except Error Tree := do
  let id ← idOf declarations
  let fields ← topFields kinds declarations
  pure { collection, id, fields, settings }

end Declaration

end DocumentDb
