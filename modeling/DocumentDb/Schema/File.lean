import DocumentDb.Schema.Registry
import DocumentDb.Yaml.Datum

/-!
# Schema files

A schema file gives the size of shards and a definition for each collection, as YAML text or as a
JSON value. Settings that are absent have defaults; entries that mean nothing are passed over.
-/

namespace DocumentDb

namespace SchemaFile

open Yaml (Datum)

/-- The number of bytes of a shard where a schema gives none. -/
def standardShardMax : Nat := 1048576

/-- Whether nothing is written in place of a node. -/
def isAbsent : Yaml.Node → Bool
  | .scalar plain text => plain && text.isEmpty
  | _ => false

/-- Put the value of an entry in the place of its name; a name counts once. -/
def place? (names : List String) (slots : List (Option Yaml.Node)) (key : String)
    (value : Yaml.Node) : Option (List (Option Yaml.Node)) :=
  match names, slots with
  | name :: names, slot :: slots =>
    if name = key then
      match slot with
      | none => some (some value :: slots)
      | some _ => none
    else (place? names slots key value).map (slot :: ·)
  | _, slots => some slots

/-- The values of the entries of given names; other entries do not matter. -/
def entries? (names : List String) :
    List (Yaml.Node × Yaml.Node) → List (Option Yaml.Node) → Option (List (Option Yaml.Node))
  | [], slots => some slots
  | (.scalar _ key, value) :: rest, slots => do entries? names rest (← place? names slots key value)
  | _ :: _, _ => none

/-- The members of given names of a node: by name in a mapping, by position in a sequence. -/
def members? (names : List String) (node : Yaml.Node) : Option (List (Option Yaml.Node)) :=
  match node with
  | .mapping entries => entries? names entries (names.map fun _ => none)
  | .sequence items =>
    if items.length > names.length then none
    else some (items.map some ++ List.replicate (names.length - items.length) none)
  | node => if isAbsent node then some (names.map fun _ => none) else none

/-- The truth value of a member that may be absent. -/
def flag? : Option Yaml.Node → Option Bool
  | none => some false
  | some (.scalar true text) => Yaml.boolWord? text
  | some _ => none

/-- The number of a member that may be absent. -/
def size? (otherwise : Nat) : Option Yaml.Node → Option Nat
  | none => some otherwise
  | some (.scalar true text) => match Yaml.wholeNumber? text with
    | some n => if 0 ≤ n && n < Number.intBound then some n.toNat else none
    | none => none
  | some _ => none

/-- The two settings that keep times. -/
def timestamps? (member? : Option Yaml.Node) : Option (Bool × Bool) :=
  match member? with
  | none => some (false, false)
  | some node => do
    match ← members? ["created_at", "updated_at"] node with
    | [createdAt, updatedAt] => pure (← flag? createdAt, ← flag? updatedAt)
    | _ => none

/-- The settings of a collection. -/
def settings? (member? : Option Yaml.Node) : Option Settings :=
  match member? with
  | none => some {}
  | some node => do
    match ← members? ["strict", "timestamps"] node with
    | [strict, timestamps] =>
      let strict ← flag? strict
      let (createdAt, updatedAt) ← timestamps? timestamps
      pure { strict, createdAt, updatedAt }
    | _ => none

/-- The entries of the declarations of a collection. -/
def declarations? (node : Yaml.Node) : Option (List (Datum × Datum)) :=
  match node with
  | .mapping entries => Datum.ofEntries? [] entries
  | node => if isAbsent node then some [] else none

/-- A definition whose declarations are still YAML data. -/
structure Draft where
  collection : String
  settings : Settings
  entries : List (Datum × Datum)

/-- The definition of a collection. -/
def draft? (collection : String) (node : Yaml.Node) : Option Draft := do
  match ← members? ["settings", "fields"] node with
  | [settings, some fields] =>
    pure { collection, settings := ← settings? settings, entries := ← declarations? fields }
  | _ => none

/-- The definitions of the entries of a mapping; of two with the same name the last one counts. -/
def drafts? : List (Yaml.Node × Yaml.Node) → Option (List Draft)
  | [] => some []
  | (.scalar _ name, node) :: rest => do
    let first ← draft? name node
    let others ← drafts? rest
    pure (if others.any (·.collection == name) then others else first :: others)
  | _ :: _ => none

/-- The definitions of a schema. -/
def collections? : Option Yaml.Node → Option (List Draft)
  | none => some []
  | some (.mapping entries) => drafts? entries
  | some node => if isAbsent node then some [] else none

/-- The size of shards and the definitions of a schema. -/
def read? (node : Yaml.Node) : Option (Nat × List Draft) := do
  match ← members? ["database", "collections"] node with
  | [database, collections] =>
    let shardMax ← match database with
      | none => pure standardShardMax
      | some node => match ← members? ["shard_max_bytes"] node with
        | [size] => size? standardShardMax size
        | _ => none
    pure (shardMax, ← collections? collections)
  | _ => none

/-- Bring declarations to JSON values. -/
def definition (draft : Draft) : Except Error Definition :=
  match Datum.toFields? [] draft.entries with
  | some declarations =>
    .ok { collection := draft.collection, settings := draft.settings, declarations }
  | none => .error .json

/-- Compile the schema that a node describes; `malformed` is the error if it describes none. -/
def compile (malformed : Error) (node : Yaml.Node) : Except Error Registry :=
  match read? node with
  | some (shardMax, drafts) => do Registry.compile shardMax (← drafts.mapM definition)
  | none => .error malformed

end SchemaFile

namespace Registry

/-- The schemas of a YAML text. -/
def ofText (text : String) : Except Error Registry :=
  match Yaml.Node.read? text with
  | some node => SchemaFile.compile .yaml node
  | none => .error .yaml

/-- The schemas of a JSON value. -/
def ofValue (value : Value) : Except Error Registry :=
  SchemaFile.compile .json (Yaml.Node.ofValue value)

end Registry

end DocumentDb
