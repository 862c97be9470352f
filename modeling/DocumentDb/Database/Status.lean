import DocumentDb.Database.Operation

/-!
# The status of a database

For each collection, in alphabetical order, how many documents it has, which ids and the last number
of its counter.
-/

namespace DocumentDb.Database

variable {σ : Type} (database : Database σ)

/-- The status of a collection. -/
def collectionStatus (store : σ) (name : String) : Except Error Value := do
  let state ← database.backend.state store name
  let tree ← database.registry.tree name
  pure (.object [("count", .ofNat state.ids.length), ("id_kind", .string tree.id.kind.name),
    ("id_count", .ofNat state.count)])

/-- The status of all collections. -/
def status (store : σ) : Except Error Value := do
  let collections ← database.registry.names.mapM fun name => do
    pure (name, ← database.collectionStatus store name)
  pure (.object [("shard_max_bytes", .ofNat database.registry.shardMax),
    ("collections", .object collections)])

end DocumentDb.Database
