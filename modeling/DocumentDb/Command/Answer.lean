import DocumentDb.Command.Request
import DocumentDb.Database.Collection
import DocumentDb.Database.Folder
import DocumentDb.Database.Status
import DocumentDb.Json.Reader
import DocumentDb.Yaml.Printer

/-!
# Answers to requests

A request is one operation on the database of a directory, and its answer is a value that is
printed. What was typed is checked in the order in which it is needed, so that of two mistakes the
first one is reported.
-/

namespace DocumentDb.Command

/-! ### What was typed -/

/-- The value of a JSON text. -/
def readJson (text : String) : Except Error Value :=
  match Json.read? text with
  | some value => .ok value
  | none => .error .json

/-- The value of a field: JSON, or else the text itself. -/
def fieldValue (text : String) : Value := (Json.read? text).getD (.string text)

/-- The object of an input, its further fields put over it. -/
def Input.value (input : Input) : Except Error Value := do
  let fields ← match input.json with
    | none => pure []
    | some text =>
      match ← readJson text with
      | .object fields => pure fields
      | other => .error (.mismatch "--json" (.expected .jsonObject other))
  let further := input.fields.map fun field => (field.1, fieldValue field.2)
  pure (.object (Object.putAll fields further))

/-- The items of a typed array. -/
def readItems (text : String) : Except Error (List Value) := do
  match ← readJson text with
  | .array items => pure items
  | other => .error (.mismatch "values" (.expected .jsonArray other))

/-- The matcher of a choice. -/
def Choice.matcher : Choice → Except Error Matcher
  | .key name => .ok (.key name)
  | .expression text =>
    match Matcher.ofExpression text with
    | .ok matcher => .ok matcher
    | .error fault => .error (.query fault)

/-! ### Requests as operations -/

variable {σ : Type}

/-- A step that depends on no state. -/
def given {α : Type} (result : Except Error α) : Operation σ α := Operation.look fun _ => result

/-- A collection and the id of one of its documents. -/
def target (database : Database σ) (collection id : String) :
    Operation σ (Collection σ × DocId) := do
  let collection ← given (database.collection collection)
  let id ← given (collection.parseId id)
  pure (collection, id)

/-- Do what a request asks for. -/
def Request.perform (database : Database σ) (now : Instant) : Request → Operation σ Value
  | get collection id => do
    let (collection, id) ← target database collection id
    Value.object <$> Operation.look (collection.findById id)
  | find collection search => do
    let collection ← given (database.collection collection)
    let documents ← Operation.look (collection.find search.query)
    pure (.array (documents.map .object))
  | insert collection input => do
    let raw ← given input.value
    let collection ← given (database.collection collection)
    Value.object <$> collection.insert now raw
  | update collection id input => do
    let (collection, id) ← target database collection id
    let patch ← given input.value
    Value.object <$> collection.updateById now id patch
  | delete collection text => do
    let (collection, id) ← target database collection text
    collection.deleteById id
    pure (.object [("ok", .bool true), ("deleted", .string text)])
  | push collection id field values => do
    let (collection, id) ← target database collection id
    let values ← given (readItems values)
    Value.object <$> collection.insertInto now id field values
  | pull collection id field values => do
    let (collection, id) ← target database collection id
    let values ← given (readItems values)
    Value.object <$> collection.removeFrom now id field values
  | updateArray collection id field choice updates => do
    let (collection, id) ← target database collection id
    let matcher ← given choice.matcher
    let updates ← given (readItems updates)
    Value.object <$> collection.updateArray now id field matcher updates
  | status => Operation.look database.status

/-! ### Command lines -/

/-- The text of a result. -/
def Format.text : Format → Value → String
  | yaml, value => Yaml.text value
  | json, value => value.pretty ++ "\n"

/-- What a command line does to a directory and what it prints. -/
def Invocation.answer (invocation : Invocation) (source : IdSource) (now : Instant)
    (directory : Directory) : Except Error String × Directory :=
  match Database.ofDirectory source invocation.directory directory with
  | .error e => (.error e, directory)
  | .ok (database, store) =>
    let (result, running) := invocation.request.perform database now |>.run { store }
    (result.map invocation.format.text, running.store.directory)

/-- The report of an error. -/
def report (e : Error) : String :=
  (Value.object [("error", .bool true), ("message", .string e.message)]).text

end DocumentDb.Command
