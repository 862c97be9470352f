import DocumentDb.Error

/-!
# Stores

A store keeps for each collection its documents, in an order, and the last number that its counter
handed out. `Backend` is what the rest of the library asks of a store, whatever its states are:
reads that may fail and writes that may fail and leave a changed state behind.
-/

namespace DocumentDb

/-- What is known of the ids of a collection at some moment. -/
structure StoreState where
  /-- The last number that the counter handed out. -/
  count : Nat
  /-- The ids of the stored documents, each once. -/
  ids : List DocId
  /-- How many bytes a shard may have. -/
  shardMax : Nat
deriving Repr, Inhabited

/-- A write to a store with states in `σ`. -/
abbrev Write (σ α : Type) := ExceptT Error (StateM σ) α

/-- The operations of a store with states in `σ`. -/
structure Backend (σ : Type) where
  state : σ → String → Except Error StoreState
  fetch : σ → String → DocId → Except Error (Option Document)
  /-- All documents of a collection in storage order. -/
  all : σ → String → Except Error (List Document)
  /-- Store documents: in place of those with the same id, or else behind the others. -/
  persist : String → List Document → Write σ Unit
  /-- Remove the documents with given ids and count them. -/
  remove : String → List DocId → Write σ Nat
  /-- Set the counter. -/
  record : String → Nat → Write σ Unit

/-- The bytes around the documents of a shard. -/
def shardFraming : Nat := 2

/-- The size of the largest document that a shard can hold. -/
def documentMax (shardMax : Nat) : Nat := shardMax - shardFraming

/-- Whether a document has a given value as its id. -/
def Object.hasIdValue (document : Document) (id : Value) : Bool :=
  match Object.value? document idKey with
  | some value => Value.identical value id
  | none => false

/-- Put a document in the place of the first one with the same value as its id, or at the end. -/
def putDocument (stored : List Document) (document : Document) : List Document :=
  match Object.value? document idKey with
  | none => stored ++ [document]
  | some id => go id stored
where
  go (id : Value) : List Document → List Document
    | [] => [document]
    | first :: rest => if first.hasIdValue id then document :: rest else first :: go id rest

/-- Put documents one after the other. -/
def upsert (stored documents : List Document) : List Document := documents.foldl putDocument stored

/-- The ids of documents, each once. -/
def idsOf : List Document → Except Error (List DocId)
  | [] => pure []
  | document :: rest =>
    match document.id? with
    | none => .error (.violation idKey .noValidId)
    | some id => do
      let others ← idsOf rest
      pure (if others.contains id then others else id :: others)

/-- The first document with an id. -/
def findDocument (stored : List Document) (id : DocId) : Option Document :=
  stored.find? (·.id? == some id)

/-- Whether a document has one of several ids. -/
def hasIdAmong (ids : List DocId) (document : Document) : Bool :=
  match document.id? with
  | some id => ids.contains id
  | none => false

/-- The documents without those that have one of several ids. -/
def withoutIds (stored : List Document) (ids : List DocId) : List Document :=
  stored.filter fun document => !hasIdAmong ids document

end DocumentDb
