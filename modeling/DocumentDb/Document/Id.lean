import DocumentDb.Json.Equality

/-!
# Ids and references

A document is named by its collection and an id, a positive number or a text. A reference is the
object `collection`, `$ref` that stores such a name.
-/

namespace DocumentDb

/-- The id of a document within its collection. -/
inductive DocId where
  | number (n : Nat)
  | text (s : String)
deriving DecidableEq, Repr, Inhabited

/-- Which ids a collection has. -/
inductive IdKind where
  /-- Positive numbers that a counter hands out. -/
  | incr
  /-- Random texts. -/
  | uid
deriving DecidableEq, Repr, Inhabited

/-- The key of a document's id. -/
def idKey : String := "id"

/-- The key of a reference's collection. -/
def collectionKey : String := "collection"

/-- The key of a reference's id. -/
def refKey : String := "$ref"

namespace IdKind

/-- The name of the kind in declarations. -/
def name : IdKind → String
  | incr => "$incr"
  | uid => "$uid"

end IdKind

namespace DocId

/-- The id as it appears in messages. -/
def label : DocId → String
  | number n => toString n
  | text s => s

/-- The id as a value. -/
def toValue : DocId → Value
  | number n => .ofNat n
  | text s => .string s

/-- The id that a value stands for: a positive integer or a nonempty text. -/
def ofValue? : Value → Option DocId
  | .number n => match n.toNat? with
    | some n => if n = 0 then none else some (number n)
    | none => none
  | .string s => if s.isEmpty then none else some (text s)
  | _ => none

/-- The id of an object, or that of any other value. -/
def ofIdOrObject? (value : Value) : Option DocId :=
  match value with
  | .object fields => (Object.value? fields idKey).bind ofValue?
  | other => ofValue? other

/-- The order of ids in listings: numbers before texts. -/
def before : DocId → DocId → Bool
  | number m, number n => m ≤ n
  | number _, text _ => true
  | text _, number _ => false
  | text s, text t => s ≤ t

end DocId

/-- The id of a document. -/
def Object.id? (document : Document) : Option DocId :=
  (Object.value? document idKey).bind DocId.ofValue?

/-- The reference to a document. -/
def reference (collection : String) (id : DocId) : Value :=
  .object [(collectionKey, .string collection), (refKey, id.toValue)]

namespace Value

/-- The id that a reference names. -/
def referenceId? : Value → Option DocId
  | .object fields => (Object.value? fields refKey).bind DocId.ofValue?
  | _ => none

/-- Whether a value is meant as a reference. -/
def isReference : Value → Bool
  | .object fields => Object.has fields refKey
  | _ => false

end Value

end DocumentDb
