import DocumentDb.Database.Operation
import DocumentDb.Schema.File
import DocumentDb.Store.Files

/-!
# Databases in directories

A directory with a schema file is a database: its documents are in the files next to the schema.
-/

namespace DocumentDb.Database

/-- The name of the schema file. -/
def schemaFile : String := "schema.yaml"

/-- The schema of a directory; `location` is its name in messages. -/
def schemaOf (location : String) (directory : Directory) : Except Error Registry :=
  let path := [schemaFile]
  if directory.contains path then do Registry.ofText (← directory.readFile path)
  else .error (.schema schemaFile (.notFound location))

/-- A database with a given schema in a directory. -/
def inFiles (source : IdSource) (registry : Registry) (directory : Directory) :
    Database FileStore × FileStore :=
  ({ registry, backend := FileStore.backend, source }, { shardMax := registry.shardMax, directory })

/-- The database of a directory. -/
def ofDirectory (source : IdSource) (location : String) (directory : Directory) :
    Except Error (Database FileStore × FileStore) := do
  let registry ← schemaOf location directory
  pure (inFiles source registry directory)

end DocumentDb.Database
