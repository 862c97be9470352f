import DocumentDb.Error
import DocumentDb.Schema.Registry

/-!
# Replacing references by documents

A path is first checked against the schema, which tells for each of its segments where it leads, and
then followed in documents, which may lack any part of it. A reference whose document is gone
becomes null.
-/

namespace DocumentDb

/-- Where a segment of a path leads. -/
inductive Hop where
  /-- Into an object. -/
  | into
  /-- Into every item of a list. -/
  | intoEach
  /-- To a reference to a document of a collection. -/
  | reference (collection : String)
  /-- To a list of references. -/
  | references (collection : String)
deriving DecidableEq, Repr, Inhabited

namespace Hop

/-- Where the last segment of a path leads. -/
def last? : Node → Option Hop
  | .reference collection _ _ => some (reference collection)
  | .list (.reference collection _) => some (references collection)
  | _ => none

/-- Where an earlier segment leads, and the fields there. -/
def next? (registry : Registry) : Node → Option (Hop × Except Error Fields)
  | .nested fields => some (into, .ok fields)
  | .document collection _ => some (into, (registry.tree collection).map (·.fields))
  | .list (.object fields) => some (intoEach, .ok fields)
  | .list (.document collection) => some (intoEach, (registry.tree collection).map (·.fields))
  | _ => none

end Hop

/-- Where the segments of a path lead from given fields; `path` is the whole path. -/
def planHops (registry : Registry) (path : String) (fields : Fields) :
    List String → Except Error (List (String × Hop))
  | [] => pure []
  | [name] =>
    match (fields.node? name).bind Hop.last? with
    | some hop => pure [(name, hop)]
    | none => .error (.query (.notReference path))
  | name :: rest =>
    match (fields.node? name).bind (Hop.next? registry) with
    | some (hop, inner) => do
      let others ← planHops registry path (← inner) rest
      pure ((name, hop) :: others)
    | none => .error (.query (.notReference path))

/-- Look up a document. -/
abbrev Fetch := String → DocId → Except Error (Option Document)

/-- The document of a reference, or null if it is gone; other values stay. -/
def resolveReference (fetch : Fetch) (collection : String) (value : Value) : Except Error Value :=
  match value.referenceId? with
  | none => pure value
  | some id => do
    match ← fetch collection id with
    | some document => pure (.object document)
    | none => pure .null

/-- Replace the references that the segments of a path lead to. -/
def followHops (fetch : Fetch) : List (String × Hop) → Object → Except Error Object
  | [], fields => pure fields
  | (name, hop) :: rest, fields =>
    match Object.value? fields name with
    | none => pure fields
    | some value => do
      let value ← match hop, value with
        | .reference collection, value => resolveReference fetch collection value
        | .references collection, .array items =>
          Value.array <$> items.mapM (resolveReference fetch collection)
        | .into, .object inner => Value.object <$> followHops fetch rest inner
        | .intoEach, .array items =>
          Value.array <$> items.mapM fun item => match item with
            | .object inner => Value.object <$> followHops fetch rest inner
            | item => pure item
        | _, value => pure value
      pure (Object.put fields name value)

/-- Replace the references at one path in documents of a collection. -/
def populatePath (registry : Registry) (fetch : Fetch) (tree : Tree) (path : String)
    (documents : List Document) : Except Error (List Document) := do
  let hops ← planHops registry path tree.fields (Text.splitAt '.' path)
  documents.mapM (followHops fetch hops)

/-- Replace the references at several paths, one path after the other. -/
def populate (registry : Registry) (fetch : Fetch) (tree : Tree) :
    List String → List Document → Except Error (List Document)
  | [], documents => pure documents
  | path :: rest, documents => do
    let documents ← populatePath registry fetch tree path documents
    populate registry fetch tree rest documents

end DocumentDb
