import DocumentDb.Document.Builder

/-!
# Operations on databases

A database is a compiled schema over a store. An operation works on documents and then commits: the
counters that moved are stored first, then the documents of other collections that came up on the
way, and the document itself last. So no id is ever stored ahead of its counter, even if a later
write fails.
-/

namespace DocumentDb

/-- A database whose store has states in `σ`. -/
structure Database (σ : Type) where
  registry : Registry
  backend : Backend σ
  /-- Where random ids come from. -/
  source : IdSource

/-- The state of a database in use. -/
structure Running (σ : Type) where
  store : σ
  work : Work := {}

/-- An operation that may fail; what was written before the failure stays. -/
abbrev Operation (σ α : Type) := ExceptT Error (StateM (Running σ)) α

namespace Work

/-- The work of a new operation: nothing has been looked at. -/
def fresh (work : Work) : Work := { drawn := work.drawn }

/-- The work of a new document of the same operation: nothing waits to be stored. -/
def cleared (work : Work) : Work := { work with pending := [] }

end Work

/-- Put a document into the group of its collection, or into a new one at the end. -/
def putInGroup (write : PendingWrite) :
    List (String × List Document) → List (String × List Document)
  | [] => [(write.collection, [write.document])]
  | group :: rest =>
    if group.1 = write.collection then (group.1, group.2 ++ [write.document]) :: rest
    else group :: putInGroup write rest

/-- Documents grouped by collection; the groups are in the order in which they first came up. -/
def groups (writes : List PendingWrite) : List (String × List Document) :=
  writes.foldl (fun done write => putInGroup write done) []

namespace Operation

variable {σ α : Type}

/-- Look at the store. -/
def look (read : σ → Except Error α) : Operation σ α := fun running =>
  (read running.store, running)

/-- Write to the store. -/
def write (change : Write σ α) : Operation σ α := fun running =>
  let (result, store) := change running.store
  (result, { running with store })

/-- Forget what earlier operations have looked at. -/
def start : Operation σ Unit := modify fun running => { running with work := running.work.fresh }

end Operation

namespace Database

variable {σ α : Type} (database : Database σ)

/-- What work on documents can look at. -/
def context (now : Instant) (store : σ) : Context where
  registry := database.registry
  now := now
  source := database.source
  state := database.backend.state store
  fetch := database.backend.fetch store

/-- Work on documents. -/
def build (now : Instant) (step : Build α) : Operation σ α := fun running =>
  let (result, work) := step (database.context now running.store) running.work
  (result, { running with work })

/-- Store counters. -/
def recordAll : List (String × Nat) → Operation σ Unit
  | [] => pure ()
  | (collection, count) :: rest => do
    Operation.write (database.backend.record collection count)
    modify fun running => { running with work := running.work.recorded collection count }
    recordAll rest

/-- Store the counters that have moved. -/
def recordCounters : Operation σ Unit := do
  database.recordAll (← get).work.movedCounters

/-- Store groups of documents. -/
def persistGroups : List (String × List Document) → Operation σ Unit
  | [] => pure ()
  | (collection, documents) :: rest => do
    Operation.write (database.backend.persist collection documents)
    persistGroups rest

/-- Store a document after the moved counters and the documents that wait. -/
def commit (collection : String) (document : Document) : Operation σ Unit := do
  database.recordCounters
  database.persistGroups (groups (← get).work.pending)
  Operation.write (database.backend.persist collection [document])

/-- Build a document and commit it. -/
def buildAndCommit (now : Instant) (collection : String) (step : Build Document) :
    Operation σ Document := do
  modify fun running => { running with work := running.work.cleared }
  let document ← database.build now step
  database.commit collection document
  pure document

end Database

end DocumentDb
