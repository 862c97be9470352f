import DocumentDb.Schema.Compiler

/-!
# Schemas of databases

The definitions of the collections of a database are compiled in two passes, the kinds of ids first,
so that collections may refer to each other in any order.
-/

namespace DocumentDb

/-- The definition of a collection, its declarations not yet compiled. -/
structure Definition where
  collection : String
  settings : Settings
  declarations : Object
deriving Inhabited

/-- The compiled schemas of a database. -/
structure Registry where
  /-- How many bytes a shard may have. -/
  shardMax : Nat
  trees : List Tree
deriving Inhabited

namespace Registry

/-- The kinds of ids that definitions declare. -/
def kinds : List Definition → Except Error Declaration.Kinds
  | [] => pure []
  | definition :: rest => do
    let rule ← Declaration.idOf definition.declarations
    let others ← kinds rest
    pure ((definition.collection, rule.kind) :: others)

/-- Compile definitions of different collections. -/
def compile (shardMax : Nat) (definitions : List Definition) : Except Error Registry := do
  let kinds ← kinds definitions
  let trees ← definitions.mapM fun definition =>
    Declaration.tree kinds definition.collection definition.settings definition.declarations
  pure { shardMax, trees }

/-- The schema of a collection, if there is one. -/
def tree? (registry : Registry) (collection : String) : Option Tree :=
  registry.trees.find? (·.collection == collection)

/-- The schema of a collection. -/
def tree (registry : Registry) (collection : String) : Except Error Tree :=
  match registry.tree? collection with
  | some tree => .ok tree
  | none => .error (.unknownCollection collection)

/-- The names of the collections in alphabetical order. -/
def names (registry : Registry) : List String :=
  (registry.trees.map (·.collection)).mergeSort

end Registry

end DocumentDb
