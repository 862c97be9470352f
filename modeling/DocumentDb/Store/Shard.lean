import DocumentDb.Json.Reader
import DocumentDb.Store.Backend

/-!
# Shards

The documents of a collection are spread over shards, each a JSON array of documents of limited
size. Shards are filled in storage order: a document begins a new shard only if it does not fit into
the one before.
-/

namespace DocumentDb.Shard

/-- The text of a shard with documents of given texts. -/
def text (documents : List String) : String := "[" ++ ",".intercalate documents ++ "]"

/-- The bytes of a shard with documents of given texts: the texts, the commas between them and the
brackets around them. -/
def size (documents : List String) : Nat :=
  (documents.map (·.utf8ByteSize)).foldr (· + ·) 0 + (documents.length - 1) + shardFraming

/-- Fill shards with texts; `current` is the shard being filled. -/
def fill (shardMax : Nat) (current : List String) : List String → Except Error (List (List String))
  | [] => pure (if current.isEmpty then [] else [current])
  | document :: rest =>
    if document.utf8ByteSize > documentMax shardMax then
      .error (.capacity (.shardSize document.utf8ByteSize shardMax))
    else if !current.isEmpty && size (current ++ [document]) > shardMax then do
      let others ← fill shardMax [document] rest
      pure (current :: others)
    else fill shardMax (current ++ [document]) rest

/-- The shards of documents of given texts. -/
def pack (shardMax : Nat) (documents : List String) : Except Error (List (List String)) :=
  fill shardMax [] documents

/-- The name of the shard of a given number. -/
def fileName (index : Nat) : String := "shard-" ++ Text.padded 4 index ++ ".json"

/-- The pattern of the names of shards. -/
def filePattern : String := "shard-*.json"

/-- The documents of the text of a shard. -/
def read (text : String) : Except Error (List Document) :=
  match Json.read? text with
  | some (.array items) => items.mapM fun item => match item with
    | .object document => .ok document
    | _ => .error .json
  | _ => .error .json

end DocumentDb.Shard

namespace DocumentDb.Counter

/-- The name of the file that keeps the counter of a collection. -/
def fileName : String := "_meta.json"

/-- The key of the counter. -/
def key : String := "id_count"

/-- The text that keeps a counter. -/
def text (count : Nat) : String := Value.pretty (.object [(key, .ofNat count)])

/-- The number that a value is. -/
def ofValue (value : Value) : Except Error Nat :=
  match value.toNat? with
  | some count => .ok count
  | none => .error .json

/-- The counter of a text. It is zero if it is absent, and must not be there twice; other fields do
not matter. -/
def read (text : String) : Except Error Nat :=
  match Json.readRepeated? text with
  | some (.object fields) =>
    match fields.filter (·.1 == key) with
    | [] => .ok 0
    | [(_, value)] => ofValue value
    | _ => .error .json
  | some (.array []) => .ok 0
  | some (.array [value]) => ofValue value
  | _ => .error .json

end DocumentDb.Counter
