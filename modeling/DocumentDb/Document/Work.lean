import DocumentDb.Document.IdSpace
import DocumentDb.Document.Order
import DocumentDb.Schema.Registry

/-!
# Work on documents

While documents are built, the work keeps the spaces of ids that it has looked at, the documents of
other collections that came up on the way and wait to be stored, and how many random texts were
drawn. What was taken stays taken when a step fails.
-/

namespace DocumentDb

/-- A document that waits to be stored. -/
structure PendingWrite where
  collection : String
  document : Document
deriving Inhabited

/-- What work on documents can look at and not change. -/
structure Context where
  registry : Registry
  /-- The time that new documents get. -/
  now : Instant
  source : IdSource
  /-- The ids of a collection as they are stored. -/
  state : String → Except Error StoreState
  /-- A stored document. -/
  fetch : String → DocId → Except Error (Option Document)

/-- The state of work on documents. -/
structure Work where
  /-- The spaces of the collections looked at. -/
  spaces : List IdSpace := []
  /-- The documents that wait to be stored, in the order in which they came up. -/
  pending : List PendingWrite := []
  /-- How many random texts were drawn. -/
  drawn : Nat := 0
deriving Inhabited

namespace Work

/-- The space of a collection, if it was looked at. -/
def space? (work : Work) (collection : String) : Option IdSpace :=
  work.spaces.find? (·.collection == collection)

/-- Put a space in the place of the one of its collection, or at the end. -/
def putSpace (new : IdSpace) : List IdSpace → List IdSpace
  | [] => [new]
  | space :: rest =>
    if space.collection == new.collection then new :: rest else space :: putSpace new rest

/-- The work with a space set. -/
def put (work : Work) (space : IdSpace) : Work :=
  { work with spaces := putSpace space work.spaces }

/-- The counters that have moved, by the name of the collection. -/
def movedCounters (work : Work) : List (String × Nat) :=
  ((work.spaces.filter (·.counterMoved)).map fun space => (space.collection, space.count)).mergeSort
    fun a b => a.1 ≤ b.1

/-- The work after a counter was stored. -/
def recorded (work : Work) (collection : String) (count : Nat) : Work :=
  { work with spaces := work.spaces.map fun space =>
      if space.collection == collection then { space with recorded := count } else space }

/-- The latest pending version of a document. -/
def pendingDocument? (work : Work) (collection : String) (id : DocId) : Option Document :=
  (work.pending.reverse.find? fun write =>
    write.collection == collection && write.document.id? == some id).map (·.document)

/-- The work with one more pending document. -/
def push (work : Work) (collection : String) (document : Document) : Work :=
  { work with pending := work.pending ++ [{ collection, document }] }

end Work

/-- Work on documents that may fail; its state survives the failure. -/
abbrev Build (α : Type) := ReaderT Context (ExceptT Error (StateM Work)) α

namespace Build

/-- A step that depends on no state. -/
def lift {α : Type} (result : Except Error α) : Build α := fun _ => ExceptT.mk (pure result)

/-- Fail. -/
def fail {α : Type} (error : Error) : Build α := lift (.error error)

/-- The schema of a collection. -/
def tree (collection : String) : Build Tree := do lift ((← read).registry.tree collection)

/-- The space of a collection, read from the store when it is first looked at. -/
def space (collection : String) : Build IdSpace := do
  match (← get).space? collection with
  | some space => pure space
  | none =>
    let tree ← tree collection
    let state ← lift ((← read).state collection)
    let space := IdSpace.ofState tree state
    modify (·.put space)
    pure space

/-- Take a new id of a collection. -/
def generateId (collection : String) : Build DocId := do
  let space ← space collection
  let (result, drawn) := space.generate (← read).source (← get).drawn
  modify fun work => { work with drawn }
  let (id, space) ← lift result
  modify (·.put space)
  pure id

/-- Take a given id of a collection. -/
def claimId (collection field : String) (value : Value) : Build DocId := do
  let space ← space collection
  let (id, space) ← lift (space.claim field value)
  modify (·.put space)
  pure id

/-- The latest version of a document: the pending one, or else the stored one. -/
def lookup (collection : String) (id : DocId) : Build Document := do
  match (← get).pendingDocument? collection id with
  | some document => pure document
  | none =>
    match ← lift ((← read).fetch collection id) with
    | some document => pure document
    | none => fail (.notFound collection id.label)

/-- Let a document wait to be stored. -/
def push (collection : String) (document : Document) : Build Unit :=
  modify (·.push collection document)

/-- A document fits into a shard. -/
def checkSize (collection : String) (document : Document) : Build Unit := do
  let shardMax := (← space collection).shardMax
  let limit := documentMax shardMax
  let size := Object.byteSize document
  if size > limit then fail (.capacity (.documentSize size limit shardMax)) else pure ()

end Build

end DocumentDb
