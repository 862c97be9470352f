import DocumentDb.Store.Backend

/-!
# Stores in memory

A store that keeps the documents as they are. It has no limit of its own on the size of documents;
the size of shards is only what it tells others.
-/

namespace DocumentDb

/-- What is stored of a collection. -/
structure Holding where
  collection : String
  documents : List Document := []
  count : Nat := 0
deriving Inhabited

/-- A store in memory; a collection has at most one holding. -/
structure MemoryStore where
  shardMax : Nat
  holdings : List Holding := []
deriving Inhabited

namespace MemoryStore

/-- The holding of a collection; it is empty where nothing was stored. -/
def holding (store : MemoryStore) (collection : String) : Holding :=
  (store.holdings.find? (·.collection == collection)).getD { collection }

/-- Put a holding in the place of the one of its collection, or at the end. -/
def putHolding (new : Holding) : List Holding → List Holding
  | [] => [new]
  | holding :: rest =>
    if holding.collection == new.collection then new :: rest else holding :: putHolding new rest

/-- The store with a holding set. -/
def put (store : MemoryStore) (holding : Holding) : MemoryStore :=
  { store with holdings := putHolding holding store.holdings }

/-- What is known of the ids of a collection. -/
def state (store : MemoryStore) (collection : String) : Except Error StoreState := do
  let holding := store.holding collection
  pure { count := holding.count, ids := ← idsOf holding.documents, shardMax := store.shardMax }

/-- Store documents. -/
def persist (collection : String) (documents : List Document) (store : MemoryStore) :
    MemoryStore :=
  let holding := store.holding collection
  store.put { holding with documents := upsert holding.documents documents }

/-- Remove the documents with given ids. -/
def remove (collection : String) (ids : List DocId) (store : MemoryStore) : MemoryStore :=
  { store with holdings := store.holdings.map fun holding =>
      if holding.collection == collection then
        { holding with documents := withoutIds holding.documents ids }
      else holding }

/-- Set the counter. -/
def record (collection : String) (count : Nat) (store : MemoryStore) : MemoryStore :=
  store.put { store.holding collection with count }

/-- Stores in memory as stores. -/
def backend : Backend MemoryStore where
  state := state
  fetch store collection id := pure (findDocument (store.holding collection).documents id)
  all store collection := pure (store.holding collection).documents
  persist collection documents := modify (persist collection documents)
  remove collection ids := do
    let before := ((← get).holding collection).documents
    modify (remove collection ids)
    pure (before.length - (withoutIds before ids).length)
  record collection count := modify (record collection count)

end MemoryStore

end DocumentDb
