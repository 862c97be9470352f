import DocumentDb.Database.Operation
import DocumentDb.Document.Listing
import DocumentDb.Query.Pipeline
import DocumentDb.Query.Populate

/-!
# Collections of a database

What can be done with the documents of one collection. Finding and counting are functions of the
store; what changes documents is an operation. An operation on several documents stops at the first
that fails and keeps those before it.
-/

namespace DocumentDb

/-- A collection of a database. -/
structure Collection (σ : Type) where
  database : Database σ
  tree : Tree

namespace Database

variable {σ : Type} (database : Database σ)

/-- The collection of a name. -/
def collection (name : String) : Except Error (Collection σ) := do
  let tree ← database.registry.tree name
  pure { database, tree }

end Database

namespace Collection

variable {σ : Type} (collection : Collection σ)

/-- The name of the collection. -/
def name : String := collection.tree.collection

/-- The id that a text stands for in this collection. -/
def parseId (text : String) : Except Error DocId :=
  match collection.tree.id.kind with
  | .incr =>
    match readNatBelow? wordBound (Text.trim text) with
    | some (n + 1) => .ok (.number (n + 1))
    | _ => .error (.mismatch idKey (.expected .numberId (.string text)))
  | .uid => .ok (.text text)

/-! ### Finding documents -/

/-- All documents in storage order. -/
def documents (store : σ) : Except Error (List Document) :=
  collection.database.backend.all store collection.name

/-- The documents that a query returns. -/
def find (query : Query) (store : σ) : Except Error (List Document) := do
  let found ← query.run (← collection.documents store)
  populate collection.database.registry (collection.database.backend.fetch store) collection.tree
    query.populate found

/-- The first document that a query returns. -/
def findOne (query : Query) (store : σ) : Except Error (Option Document) := do
  pure (← collection.find query store).head?

/-- The document of an id. -/
def findById (id : DocId) (store : σ) : Except Error Document := do
  match ← collection.database.backend.fetch store collection.name id with
  | some document => pure document
  | none => .error (.notFound collection.name id.label)

/-- The documents that pass the filters of a query, whole and in storage order. -/
def selected (query : Query) (store : σ) : Except Error (List Document) := do
  query.check
  pure ((← collection.documents store).filter query.selects)

/-- How many documents pass the filters of a query. -/
def count (query : Query) (store : σ) : Except Error Nat := do
  pure (← collection.selected query store).length

/-! ### Inserting documents -/

/-- Insert a document as a part of an operation. -/
def insertOne (now : Instant) (raw : Value) : Operation σ Document :=
  collection.database.buildAndCommit now collection.name (Build.create collection.name raw)

/-- Insert documents one after the other as a part of an operation. -/
def insertAll (now : Instant) : List Value → Operation σ (List Document)
  | [] => pure []
  | raw :: rest => do
    let first ← collection.insertOne now raw
    let others ← insertAll now rest
    pure (first :: others)

/-- Insert a document. -/
def insert (now : Instant) (raw : Value) : Operation σ Document := do
  Operation.start
  collection.insertOne now raw

/-- Insert documents one after the other. -/
def insertMany (now : Instant) (raws : List Value) : Operation σ (List Document) := do
  Operation.start
  collection.insertAll now raws

/-! ### Changing documents -/

/-- Change a document by a patch as a part of an operation. -/
def changeOne (now : Instant) (existing : Document) (patch : Value) : Operation σ Document :=
  collection.database.buildAndCommit now collection.name
    (Build.change collection.name existing patch)

/-- Change documents one after the other as a part of an operation. -/
def changeAll (now : Instant) (patch : Value) : List Document → Operation σ (List Document)
  | [] => pure []
  | existing :: rest => do
    let first ← collection.changeOne now existing patch
    let others ← changeAll now patch rest
    pure (first :: others)

/-- Change the document of an id by a patch. -/
def updateById (now : Instant) (id : DocId) (patch : Value) : Operation σ Document := do
  let existing ← Operation.look (collection.findById id)
  Operation.start
  collection.changeOne now existing patch

/-- Change the documents that pass the filters of a query by a patch. -/
def updateMany (now : Instant) (query : Query) (patch : Value) :
    Operation σ (List Document) := do
  let existing ← Operation.look (collection.selected query)
  Operation.start
  collection.changeAll now patch existing

/-! ### Removing documents -/

/-- Remove the document of an id. References to it stay. -/
def deleteById (id : DocId) : Operation σ Unit := do
  match ← Operation.write (collection.database.backend.remove collection.name [id]) with
  | 0 => throw (.notFound collection.name id.label)
  | _ => pure ()

/-- Remove the documents that pass the filters of a query and count them. -/
def deleteMany (query : Query) : Operation σ Nat := do
  let ids := (← Operation.look (collection.selected query)).filterMap Object.id?
  if ids.isEmpty then pure 0
  else Operation.write (collection.database.backend.remove collection.name ids)

/-! ### Changing lists inside a document -/

/-- Edit the items of a list of the document of an id. -/
def changeList (now : Instant) (id : DocId) (path : String)
    (edit : Element → List Value → Build (List Value)) : Operation σ Document := do
  let element ← Operation.look fun _ => collection.tree.element path
  let existing ← Operation.look (collection.findById id)
  let current ← Operation.look fun _ => Listing.items existing path
  Operation.start
  let items ← collection.database.build now (edit element current)
  collection.changeOne now existing (Listing.patch path items)

/-- Add values to a list. -/
def insertInto (now : Instant) (id : DocId) (path : String) (values : List Value) :
    Operation σ Document :=
  collection.changeList now id path fun element current =>
    Listing.insert path element current values

/-- Remove the items that values mean from a list. -/
def removeFrom (now : Instant) (id : DocId) (path : String) (values : List Value) :
    Operation σ Document :=
  collection.changeList now id path fun element current =>
    pure (Listing.remove element current values)

/-- Edit the items of a list that a matcher chooses. -/
def updateArray (now : Instant) (id : DocId) (path : String) (matcher : Matcher)
    (updates : List Value) : Operation σ Document :=
  collection.changeList now id path fun element current =>
    Build.lift (Listing.update path element matcher current updates)

end Collection

end DocumentDb
