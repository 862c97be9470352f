import DocumentDb.Schema.Tree
import DocumentDb.Store.Backend

/-!
# Spaces of ids

The ids of a collection during an operation: those that are stored and those that the operation has
taken since. An id is taken either by generating the next one or by claiming a given one; a claimed
number raises the counter, so that no number is generated twice.
-/

namespace DocumentDb

/-- A source of random texts: the text of a draw, by the number of the draw and a length. -/
abbrev IdSource := Nat → Nat → String

/-- The ids of a collection during an operation. -/
structure IdSpace where
  collection : String
  rule : IdRule
  /-- The last number that was handed out or claimed. -/
  count : Nat
  /-- The counter as the store knows it. -/
  recorded : Nat
  /-- The ids in use. -/
  ids : List DocId
  shardMax : Nat
deriving Inhabited

namespace IdSpace

/-- The ids of a collection as they are stored. -/
def ofState (tree : Tree) (state : StoreState) : IdSpace where
  collection := tree.collection
  rule := tree.id
  count := state.count
  recorded := state.count
  ids := state.ids
  shardMax := state.shardMax

/-- Whether an id is in use. -/
def contains (space : IdSpace) (id : DocId) : Bool := space.ids.contains id

/-- The space with one more id in use. -/
def take (space : IdSpace) (id : DocId) : IdSpace := { space with ids := id :: space.ids }

/-- Take the next number. -/
def generateNumber (most : Nat) (space : IdSpace) : Except Error (DocId × IdSpace) :=
  let next := space.count + 1
  if next > most then .error (.capacity (.idsExhausted space.collection most))
  else if space.contains (.number next) then
    .error (.violation idKey (.generatedInUse next space.collection))
  else .ok (.number next, { space.take (.number next) with count := next })

/-- The preferred length of a random id. -/
def preferredLength : Nat := 21

/-- How many random texts are tried. -/
def attempts : Nat := 8

/-- The length of random ids: the preferred one as far as the bounds allow it. -/
def uidLength (least most : Nat) : Nat := min (max preferredLength least) most

/-- Take the first random text that is not in use, and count the draws. -/
def generateText (source : IdSource) (length : Nat) (space : IdSpace) :
    Nat → Nat → Except Error (DocId × IdSpace) × Nat
  | 0, drawn => (.error (.violation idKey (.noUnusedId space.collection)), drawn)
  | tries + 1, drawn =>
    let id := DocId.text (source drawn length)
    if space.contains id then generateText source length space tries (drawn + 1)
    else (.ok (id, space.take id), drawn + 1)

/-- Take a new id; `drawn` counts the random texts that were drawn before. -/
def generate (source : IdSource) (space : IdSpace) (drawn : Nat) :
    Except Error (DocId × IdSpace) × Nat :=
  match space.rule with
  | .incr most => (space.generateNumber most, drawn)
  | .uid least most => space.generateText source (uidLength least most) attempts drawn

/-- The id that a value stands for: its shape and size are checked and nothing else. -/
def cast (space : IdSpace) (field : String) (value : Value) : Except Error DocId :=
  match space.rule with
  | .incr most =>
    match value.toNat? with
    | some (n + 1) =>
      if n + 1 > most then .error (.violation field (.idTooLarge (n + 1) most))
      else .ok (.number (n + 1))
    | _ => .error (.mismatch field (.expected .numberId value))
  | .uid least most =>
    match value with
    | .string text =>
      if text.length < least || most < text.length then
        .error (.violation field (.idLength least most text.length))
      else .ok (.text text)
    | _ => .error (.mismatch field (.expected .textId value))

/-- The id that a value stands for, which has to be in use. -/
def existing (space : IdSpace) (field : String) (value : Value) : Except Error DocId := do
  let id ← space.cast field value
  if space.contains id then pure id else .error (.notFound space.collection id.label)

/-- The id that a value stands for, which must not be in use. -/
def unused (space : IdSpace) (field : String) (value : Value) : Except Error DocId := do
  let id ← space.cast field value
  if space.contains id then .error (.violation field (.duplicateId id space.collection))
  else pure id

/-- The space after an id is claimed; a number raises the counter. -/
def claimed (space : IdSpace) (id : DocId) : IdSpace :=
  match id with
  | .number n => { space.take id with count := max space.count n }
  | .text _ => space.take id

/-- Take a given id. -/
def claim (space : IdSpace) (field : String) (value : Value) : Except Error (DocId × IdSpace) := do
  let id ← space.unused field value
  pure (id, space.claimed id)

/-- Whether the counter has moved since the store was read. -/
def counterMoved (space : IdSpace) : Bool :=
  space.rule.kind == .incr && space.count != space.recorded

/-- The reference that a value is: exactly a collection and an id, of this collection and in
use. -/
def checkReference (space : IdSpace) (field : String) (value : Value) : Except Error Value :=
  match value with
  | .object fields =>
    match fields.length, Object.value? fields collectionKey, Object.value? fields refKey with
    | 2, some collection, some id =>
      match collection with
      | .string collection =>
        if collection = space.collection then do
          let id ← space.existing (field ++ "." ++ refKey) id
          pure (reference space.collection id)
        else .error (.violation field (.wrongTarget collection space.collection))
      | _ => .error (.mismatch field .referenceCollection)
    | _, _, _ => .error (.mismatch field (.referenceKeys (Object.keys fields)))
  | other => .error (.mismatch field (.expected .reference other))

end IdSpace

end DocumentDb
