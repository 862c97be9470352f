import DocumentDb.Store.Shard
import DocumentDb.Store.Wildcard

/-!
# Stores in files

A collection is a folder of shards, next to a file with its counter. The shards of a collection are
found by a pattern of paths, in which the name of the collection stands as it is, and read in the
order of their paths. Every write reads all documents, packs them anew, writes all shards and
removes those that are left over.
-/

namespace DocumentDb

/-- A store in the files of a directory. -/
structure FileStore where
  shardMax : Nat
  directory : Directory := {}
deriving Inhabited

namespace FileStore

/-- The folder of a collection. -/
def folder (collection : String) : Path := Directory.pathOf collection

/-- The paths of the shards of a collection. -/
def shardPaths (directory : Directory) (collection : String) : Except Error (List Path) :=
  let folder := folder collection
  if directory.contains folder then Wildcard.find directory (folder ++ [Shard.filePattern])
  else .ok []

/-- The documents of a collection in storage order. -/
def documents (directory : Directory) (collection : String) : Except Error (List Document) := do
  let paths ← shardPaths directory collection
  let shards ← paths.mapM fun path => do Shard.read (← directory.readFile path)
  pure shards.flatten

/-- The counter of a collection. -/
def counter (directory : Directory) (collection : String) : Except Error Nat :=
  let path := folder collection ++ [Counter.fileName]
  if directory.contains path then do Counter.read (← directory.readFile path) else .ok 0

/-- A step that only reads. -/
def lookAt {α : Type} (f : Directory → Except Error α) : Change α := do
  match f (← get) with
  | .ok a => pure a
  | .error e => throw e

/-- Write shards into a folder, the first of them under a number. -/
def writeShards (folder : Path) (index : Nat) : List (List String) → Change Unit
  | [] => pure ()
  | shard :: rest => do
    Directory.writeFile folder (Shard.fileName index) (Shard.text shard)
    writeShards folder (index + 1) rest

/-- Whether a path ends in the name of one of the first shards. -/
def isAmongFirst (count : Nat) (path : Path) : Bool :=
  (List.range count).any fun index => path.getLast? == some (Shard.fileName index)

/-- Remove files. -/
def removeFiles : List Path → Change Unit
  | [] => pure ()
  | path :: rest => do
    Directory.removeFile path
    removeFiles rest

/-- Write all documents of a collection. -/
def writeDocuments (shardMax : Nat) (collection : String) (documents : List Document) :
    Change Unit := do
  let folder := folder collection
  Directory.makeFolders folder
  let shards ← lookAt fun _ => Shard.pack shardMax (documents.map Object.text)
  writeShards folder 0 shards
  let paths ← lookAt fun directory => shardPaths directory collection
  removeFiles (paths.filter fun path => !isAmongFirst shards.length path)

/-- Store documents. -/
def persist (shardMax : Nat) (collection : String) (new : List Document) : Change Unit := do
  let stored ← lookAt fun directory => documents directory collection
  writeDocuments shardMax collection (upsert stored new)

/-- Remove the documents with given ids and count them. -/
def remove (shardMax : Nat) (collection : String) (ids : List DocId) : Change Nat := do
  let stored ← lookAt fun directory => documents directory collection
  let left := withoutIds stored ids
  let removed := stored.length - left.length
  if removed > 0 then writeDocuments shardMax collection left
  pure removed

/-- Set the counter of a collection. -/
def record (collection : String) (count : Nat) : Change Unit := do
  let folder := folder collection
  Directory.makeFolders folder
  Directory.writeFile folder Counter.fileName (Counter.text count)

/-- What is known of the ids of a collection. -/
def state (store : FileStore) (collection : String) : Except Error StoreState := do
  let count ← counter store.directory collection
  let ids ← idsOf (← documents store.directory collection)
  pure { count, ids, shardMax := store.shardMax }

/-- A change of the directory as a write to the store. -/
def write {α : Type} (change : Nat → Change α) : Write FileStore α := fun store =>
  let (result, directory) := change store.shardMax store.directory
  (result, { store with directory })

/-- Stores in files as stores. -/
def backend : Backend FileStore where
  state := state
  fetch store collection id := do
    pure (findDocument (← documents store.directory collection) id)
  all store collection := documents store.directory collection
  persist collection new := write fun shardMax => persist shardMax collection new
  remove collection ids := write fun shardMax => remove shardMax collection ids
  record collection count := write fun _ => record collection count

end FileStore

end DocumentDb
