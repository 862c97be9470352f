import DocumentDb.Command.Arguments
import DocumentDb.Numeric.Reader
import DocumentDb.Query.Pipeline

/-!
# Requests on the command line

A command line names a directory and a format, and then a command with its arguments. The filters of
a search are put back into the order in which they were typed, because each one joins those before
it and the arguments keep the values of every option apart.
-/

namespace DocumentDb.Command

/-- How results are printed. -/
inductive Format where
  | yaml
  | json
deriving DecidableEq, Repr, Inhabited

/-- How a filter joins those before it. -/
inductive Join where
  /-- It opens a chain of its own. -/
  | opens
  | and
  | or
deriving DecidableEq, Repr, Inhabited

/-- The option that filters are given by. -/
def Join.option : Join → String
  | opens => "where"
  | and => "and"
  | or => "or"

/-- What is searched for. -/
structure Search where
  filters : List (Join × String) := []
  included : List String := []
  excluded : List String := []
  sort : Option (String × Direction) := none
  offset : Option Nat := none
  limit : Option Nat := none
  populate : List String := []

/-- The fields of a document as they were typed. -/
structure Input where
  /-- The text of an object. -/
  json : Option String := none
  /-- Further fields by their keys. -/
  fields : List (String × String) := []

/-- What tells apart the items that are to be edited. -/
inductive Choice where
  | key (key : String)
  | expression (text : String)

/-- What is to be done. -/
inductive Request where
  | get (collection id : String)
  | find (collection : String) (search : Search)
  | insert (collection : String) (input : Input)
  | update (collection id : String) (input : Input)
  | delete (collection id : String)
  | push (collection id field values : String)
  | pull (collection id field values : String)
  | updateArray (collection id field : String) (choice : Choice) (updates : String)
  | status

/-- A request for a directory. -/
structure Invocation where
  directory : String
  format : Format
  request : Request

/-! ### Searches -/

namespace Search

/-- A query with one more filter. -/
def addFilter (query : Query) (filter : Join × String) : Query :=
  match filter.1 with
  | .opens => query.filter filter.2
  | .and => query.and filter.2
  | .or => query.or filter.2

/-- The query of a search. -/
def query (search : Search) : Query :=
  let query := search.filters.foldl addFilter {}
  let query := (query.including search.included).excluding search.excluded
  let query := match search.sort with
    | some (field, direction) => query.sortBy field direction
    | none => query
  let query := match search.offset with
    | some count => query.skip count
    | none => query
  let query := match search.limit with
    | some count => query.take count
    | none => query
  query.populating search.populate

end Search

/-! ### Options -/

/-- The place of a value for which none is known. -/
def lastPlace : Nat := wordBound - 1

/-- The filters of an option with their places. -/
def placed (places : List Nat) (join : Join) (values : List String) : List (Nat × Join × String) :=
  values.zipIdx.map fun (value, n) => ((places[n]?).getD lastPlace, join, value)

/-- The filters of several options by their places, which are given for each option. -/
def orderedFilters (places : Join → List Nat) (groups : List (Join × List String)) :
    List (Join × String) :=
  let filters := groups.flatMap fun group => placed (places group.1) group.1 group.2
  (filters.mergeSort fun first second => first.1 ≤ second.1).map (·.2)

/-- Whether a text is a count. -/
def isCount (text : String) : Bool := (readNatBelow? wordBound text).isSome

/-- The options of a search. -/
def searchOptions : List OptionForm :=
  [{ name := "where", repeats := true }, { name := "and", repeats := true },
    { name := "or", repeats := true }, { name := "include", repeats := true },
    { name := "exclude", repeats := true }, { name := "sort" },
    { name := "desc", takesValue := false }, { name := "offset", accepts := isCount },
    { name := "limit", accepts := isCount }, { name := "populate", repeats := true }]

/-- The options of the fields of a document. -/
def inputOptions : List OptionForm :=
  [{ name := "json" },
    { name := "field", repeats := true, accepts := fun text => (Shape.splitPair? text).isSome }]

/-- The options that choose items. -/
def choiceOptions : List OptionForm := [{ name := "key" }, { name := "expr" }]

/-- The search that arguments describe. -/
def searchOf (given : Arguments) : Except Stop Search :=
  if (given.has "include" && given.has "exclude") || (given.has "desc" && !given.has "sort") then
    .error .misuse
  else
    let direction := if given.has "desc" then .descending else .ascending
    let filters (join : Join) := (join, given.all join.option)
    let count (name : String) := (given.one? name).bind (readNatBelow? wordBound)
    .ok {
      filters := orderedFilters (fun join => given.places join.option)
        [filters .opens, filters .and, filters .or]
      included := given.all "include"
      excluded := given.all "exclude"
      sort := (given.one? "sort").map fun field => (field, direction)
      offset := count "offset"
      limit := count "limit"
      populate := given.all "populate" }

/-- The input that arguments describe. -/
def inputOf (given : Arguments) : Input where
  json := given.one? "json"
  fields := (given.all "field").filterMap Shape.splitPair?

/-- The choice that arguments describe. -/
def choiceOf (given : Arguments) : Except Stop Choice :=
  match given.one? "key", given.one? "expr" with
  | some key, none => .ok (.key key)
  | none, some text => .ok (.expression text)
  | _, _ => .error .misuse

/-! ### Commands -/

/-- The arguments of a command. -/
def formOf? (command : String) : Option Form :=
  match command with
  | "get" => some ⟨2, [], false⟩
  | "find" => some ⟨1, searchOptions, false⟩
  | "insert" => some ⟨1, inputOptions, false⟩
  | "update" => some ⟨2, inputOptions, false⟩
  | "delete" => some ⟨2, [], false⟩
  | "push" => some ⟨4, [], false⟩
  | "pull" => some ⟨4, [], false⟩
  | "update-array" => some ⟨4, choiceOptions, false⟩
  | "status" => some ⟨0, [], false⟩
  | _ => none

/-- The request of a command with its arguments. -/
def requestOf (command : String) (given : Arguments) : Except Stop Request :=
  match command, given.values with
  | "get", [collection, id] => .ok (.get collection id)
  | "find", [collection] => do pure (.find collection (← searchOf given))
  | "insert", [collection] => .ok (.insert collection (inputOf given))
  | "update", [collection, id] => .ok (.update collection id (inputOf given))
  | "delete", [collection, id] => .ok (.delete collection id)
  | "push", [collection, id, field, values] => .ok (.push collection id field values)
  | "pull", [collection, id, field, values] => .ok (.pull collection id field values)
  | "update-array", [collection, id, field, updates] => do
    pure (.updateArray collection id field (← choiceOf given) updates)
  | "status", [] => .ok .status
  | _, _ => .error .misuse

/-- The request of the arguments from a command on. -/
def Request.read : List String → Except Stop Request
  | [] => .error .misuse
  | command :: texts =>
    match formOf? command with
    | some form => do requestOf command (← Arguments.read form texts)
    | none =>
      if command = "help" && texts.all (fun text => (formOf? text).isSome) && texts.length ≤ 1 then
        .error .help
      else .error .misuse

/-- The format of a name. -/
def Format.ofName? (name : String) : Option Format :=
  match name with
  | "yaml" => some .yaml
  | "json" => some .json
  | _ => none

/-- The arguments in front of a command. -/
def frontForm : Form where
  values := 0
  options := [{ name := "data-dir" },
    { name := "format", accepts := fun name => (Format.ofName? name).isSome }]
  leads := true

/-- Read a command line. -/
def Invocation.read (texts : List String) : Except Stop Invocation := do
  let given ← Arguments.read frontForm texts
  let request ← Request.read given.rest
  pure {
    directory := (given.one? "data-dir").getD "."
    format := ((given.one? "format").bind Format.ofName?).getD .yaml
    request }

end DocumentDb.Command
