import DocumentDb.Query.Comparison
import DocumentDb.Query.Projection

/-!
# Queries

A query filters documents and then projects, sorts, skips and truncates them, in this order. Its
filters are chains; the predicates of a chain are joined from left to right, and all chains have to
hold. Misuse while a query is put together is kept in it and reported when it runs; the first fault
counts.
-/

namespace DocumentDb

/-- How a predicate is joined to those before it in its chain. -/
inductive Connective where
  | and
  | or
deriving DecidableEq, Repr, Inhabited

namespace Connective

/-- The name of a connective. -/
def name : Connective → String
  | and => "and"
  | or => "or"

/-- Join two truth values. -/
def join : Connective → Bool → Bool → Bool
  | and, p, q => p && q
  | or, p, q => p || q

end Connective

/-- A condition on a document. -/
inductive Predicate where
  | compare (e : Expression)
  /-- The array at a path has items left after it is edited. -/
  | itemsLeft (path : String) (edit : List Value → List Value)

namespace Predicate

/-- Whether a condition holds of a document. -/
def holds (predicate : Predicate) (document : Value) : Bool :=
  match predicate with
  | compare e => e.holds document
  | itemsLeft path edit =>
    match document.atPath? path with
    | some (.array items) => !(edit items).isEmpty
    | _ => false

end Predicate

/-- Predicates that are joined from left to right. -/
structure Chain where
  first : Predicate
  links : List (Connective × Predicate) := []

namespace Chain

/-- Whether the joined predicates hold of a document. -/
def holds (chain : Chain) (document : Value) : Bool :=
  chain.links.foldl (fun acc link => link.1.join acc (link.2.holds document))
    (chain.first.holds document)

end Chain

/-- The direction of sorting. -/
inductive Direction where
  | ascending
  | descending
deriving DecidableEq, Repr, Inhabited

/-- A query. -/
structure Query where
  chains : List Chain := []
  fault : Option QueryFault := none
  included : List String := []
  excluded : List String := []
  sort : Option (String × Direction) := none
  offset : Nat := 0
  limit : Option Nat := none
  populate : List String := []

namespace Query

/-! ### Putting queries together -/

/-- Keep a fault, unless there is an earlier one. -/
def fail (query : Query) (fault : QueryFault) : Query :=
  { query with fault := query.fault.orElse fun _ => some fault }

/-- The predicate of an expression. -/
def predicate (expression : String) : Except QueryFault Predicate := do
  let e ← Expression.parse expression
  if e.operator = .strictEq then .error (.strictFilter expression) else pure (.compare e)

/-- Open a chain. -/
def openChain (query : Query) (predicate : Except QueryFault Predicate) : Query :=
  match predicate with
  | .ok first => { query with chains := query.chains ++ [{ first }] }
  | .error fault => query.fail (.recorded fault)

/-- The chains with a predicate joined to the last one, if there is a chain. -/
def extendLast? (connective : Connective) (predicate : Predicate) :
    List Chain → Option (List Chain)
  | [] => none
  | [chain] => some [{ chain with links := chain.links ++ [(connective, predicate)] }]
  | chain :: rest => (extendLast? connective predicate rest).map (chain :: ·)

/-- Join a predicate to the last chain. -/
def extendChain (query : Query) (connective : Connective)
    (predicate : Except QueryFault Predicate) : Query :=
  match predicate with
  | .error fault => query.fail (.recorded fault)
  | .ok predicate =>
    match extendLast? connective predicate query.chains with
    | some chains => { query with chains }
    | none => query.fail (.dangling connective.name)

/-- Open a chain with an expression. -/
def filter (query : Query) (expression : String) : Query :=
  query.openChain (predicate expression)

/-- Join an expression by `and`. -/
def and (query : Query) (expression : String) : Query :=
  query.extendChain .and (predicate expression)

/-- Join an expression by `or`. -/
def or (query : Query) (expression : String) : Query :=
  query.extendChain .or (predicate expression)

/-- Open a chain: some item of the array at a path satisfies the expression of three tokens. -/
def whereArray (query : Query) (path key operator literal : String) : Query :=
  query.openChain do
    let e ← Expression.ofTokens key operator literal
    pure (.itemsLeft path (·.filter e.holdsOfItem))

/-- Open a chain: the array at a path has items left after it is edited. -/
def whereWith (query : Query) (path : String) (edit : List Value → List Value) : Query :=
  query.openChain (.ok (.itemsLeft path edit))

/-- Keep these fields only. -/
def including (query : Query) (fields : List String) : Query :=
  { query with included := query.included ++ fields }

/-- Drop these fields. -/
def excluding (query : Query) (fields : List String) : Query :=
  { query with excluded := query.excluded ++ fields }

/-- Sort by a field. -/
def sortBy (query : Query) (field : String) (direction : Direction) : Query :=
  { query with sort := some (field, direction) }

/-- Skip a number of documents. -/
def skip (query : Query) (count : Nat) : Query := { query with offset := count }

/-- Return at most a number of documents. -/
def take (query : Query) (count : Nat) : Query := { query with limit := some count }

/-- Replace the references at these paths by their documents. -/
def populating (query : Query) (paths : List String) : Query :=
  { query with populate := query.populate ++ paths }

/-! ### Running queries -/

/-- The fault of a query, if it has one. -/
def fault? (query : Query) : Option QueryFault :=
  query.fault.orElse fun _ =>
    if !query.included.isEmpty && !query.excluded.isEmpty then some .bothProjections else none

/-- The query has no fault. -/
def check (query : Query) : Except Error Unit :=
  match query.fault? with
  | some fault => .error (.query fault)
  | none => .ok ()

/-- Whether a document passes all chains. -/
def selects (query : Query) (document : Document) : Bool :=
  query.chains.all (·.holds (.object document))

/-- The part of a document that the query returns. -/
def project (query : Query) (document : Document) : Document :=
  if !query.included.isEmpty then document.keeping query.included
  else if !query.excluded.isEmpty then document.dropping query.excluded
  else document

/-- Whether one document may stand before another in the order of a field. -/
def inOrder (field : String) (direction : Direction) (a b : Document) : Bool :=
  let order := Operand.sortOrder (.ofValue ((Value.object a).atPath? field))
    (.ofValue ((Value.object b).atPath? field))
  match direction with
  | .ascending => order != .gt
  | .descending => order != .lt

/-- Documents in the order that the query asks for; those in the same place keep their order. -/
def sorted (query : Query) (documents : List Document) : List Document :=
  match query.sort with
  | some (field, direction) => documents.mergeSort (inOrder field direction)
  | none => documents

/-- The part of a list between the offset and the limit. -/
def page (query : Query) (documents : List Document) : List Document :=
  let rest := documents.drop query.offset
  match query.limit with
  | some limit => rest.take limit
  | none => rest

/-- The documents that the query returns, references not yet replaced. -/
def run (query : Query) (documents : List Document) : Except Error (List Document) := do
  query.check
  pure (query.page (query.sorted ((documents.filter query.selects).map query.project)))

end Query

end DocumentDb
