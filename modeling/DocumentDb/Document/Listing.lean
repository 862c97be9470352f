import DocumentDb.Document.Work
import DocumentDb.Query.Comparison

/-!
# Lists inside documents

The items of a list field are changed by computing the new items from the old ones; the new list is
then written like any other value of the field. What an item is told apart by depends on the
elements of the list: references and documents have ids, objects have fields, and other items are
the values themselves.
-/

namespace DocumentDb

/-! ### Choosing items -/

/-- Which items of a list are edited. -/
inductive Matcher where
  /-- For each update those that have the same value of a key. -/
  | key (key : String)
  /-- Those of which an expression holds: all for `=`, and the first for `===`. -/
  | expression (e : Expression)
  /-- The whole list is edited. -/
  | custom (edit : List Value → List Value)

namespace Matcher

/-- Only equalities choose items. -/
def checkOperator (operator : Operator) : Except QueryFault Unit :=
  if operator = .eq || operator = .strictEq then .ok ()
  else .error (.matcherOperator operator.symbol)

/-- The matcher of an expression. -/
def ofExpression (text : String) : Except QueryFault Matcher := do
  let e ← Expression.parse text
  checkOperator e.operator
  pure (expression e)

/-- The matcher of a text: an expression if there is a sign of an operator in it, else a key. -/
def parse (text : String) : Except QueryFault Matcher :=
  if text.toList.any Operator.isSign then ofExpression text
  else
    let name := Text.trim text
    if name.isEmpty then .error .emptyMatcher else .ok (key name)

end Matcher

/-- Edit the first item that passes a test. -/
def editFirst {α : Type} (test : α → Bool) (edit : α → α) : List α → List α
  | [] => []
  | item :: rest =>
    if test item then edit item :: rest else item :: editFirst test edit rest

/-- Edit the items that an expression chooses. -/
def Expression.edit (e : Expression) (edit : Value → Value) (items : List Value) :
    List Value :=
  match e.operator with
  | .strictEq => editFirst e.holdsOfItem edit items
  | _ => items.map fun item => if e.holdsOfItem item then edit item else item

/-- An item with the fields of an update laid over it. -/
def overlay (update : Object) (item : Value) : Value :=
  match item with
  | .object fields => .object (Object.putAll fields update)
  | _ => .object update

/-- A raw id or an object with nothing but an id as a reference; all else is left as it is. -/
def asReference (collection : String) (value : Value) : Value :=
  if value.referenceId?.isSome then value
  else
    match value, DocId.ofIdOrObject? value with
    | .object [_], some id => reference collection id
    | .object _, _ => value
    | _, some id => reference collection id
    | _, none => value

/-- The id that a value names as a reference, as an object or by itself. -/
def namedId? (value : Value) : Option DocId :=
  value.referenceId?.orElse fun _ => DocId.ofIdOrObject? value

namespace Listing

/-! ### Reading and writing the field -/

/-- The items behind several segments; there are none where a part is absent. -/
def itemsBehind (path : String) : List String → Object → Except Error (List Value)
  | [], _ => pure []
  | [name], fields =>
    match Object.value? fields name with
    | none | some .null => pure []
    | some (.array items) => pure items
    | some other => .error (.mismatch path (.expected .array other))
  | name :: rest, fields =>
    match Object.value? fields name with
    | some (.object inner) => itemsBehind path rest inner
    | _ => pure []

/-- The items of a document at a dotted path. -/
def items (document : Document) (path : String) : Except Error (List Value) :=
  itemsBehind path (Text.splitAt '.' path) document

/-- The patch that writes items at a dotted path. -/
def patch (path : String) (items : List Value) : Value :=
  (Text.splitAt '.' path).foldr (fun name value => .object [(name, value)]) (.array items)

/-! ### Adding items -/

/-- The values added to a list of documents, the first of them at an index, are objects whose ids,
if they have any, are in use. -/
def checkDocuments (space : IdSpace) (path collection : String) (index : Nat) :
    List Value → Except Error Unit
  | [] => pure ()
  | .object fields :: rest => do
    let itemPath := path ++ "." ++ toString index
    match Object.value? fields idKey with
    | none | some .null => pure ()
    | some id => discard (space.existing (itemPath ++ "." ++ idKey) id)
    checkDocuments space path collection (index + 1) rest
  | other :: _ =>
    .error (.mismatch (path ++ "." ++ toString index) (.expected (.documentOf collection) other))

/-- The items with values added. -/
def insert (path : String) (element : Element) (current values : List Value) :
    Build (List Value) :=
  match element with
  | .reference collection _ =>
    pure (collapse Value.referenceId? (current ++ values.map (asReference collection)))
  | .document collection => do
    let space ← Build.space collection
    Build.lift (checkDocuments space path collection current.length values)
    pure (collapse DocId.ofIdOrObject? (current ++ values))
  | _ => pure (current ++ values)

/-! ### Removing items -/

/-- Whether an object is meant by a value: an object of one field means those with this field, any
other object the same object, and another value those with this id. -/
def meansObject (item wanted : Value) : Bool :=
  match wanted with
  | .object [(key, value)] =>
    match item.field? key with
    | some found => Value.same found value
    | none => false
  | .object _ => Value.same item wanted
  | other =>
    match item.field? idKey with
    | some id => Value.same id other
    | none => false

/-- Whether the id of an item is among those that values name. -/
def idIsNamed (id? : Option DocId) (values : List Value) : Bool :=
  match id? with
  | some id => (values.filterMap namedId?).contains id
  | none => false

/-- The items without those that values mean. -/
def remove (element : Element) (current values : List Value) : List Value :=
  match element with
  | .reference _ _ => current.filter fun item => !idIsNamed item.referenceId? values
  | .document _ => current.filter fun item => !idIsNamed (DocId.ofIdOrObject? item) values
  | .object _ => current.filter fun item => !values.any (meansObject item)
  | _ => current.filter fun item => !values.any (Value.same item)

/-! ### Editing items -/

/-- Fail with a fault of the query. -/
def refuse {α : Type} (fault : QueryFault) : Except Error α := .error (.query fault)

/-- The only replacement. -/
def single (path : String) (updates : List Value) : Except Error Value :=
  match updates with
  | [update] => pure update
  | _ => refuse (.replacements path updates.length)

/-- The fields of an update. -/
def updateFields (path : String) (update : Value) : Except Error Object :=
  match update with
  | .object fields => pure fields
  | other => .error (.mismatch path (.expected .updateObject other))

/-- The fields of updates, the first of them at an index. -/
def allFields (path : String) (index : Nat) : List Value → Except Error (List Object)
  | [] => pure []
  | update :: rest => do
    let first ← updateFields (path ++ "." ++ toString index) update
    let others ← allFields path (index + 1) rest
    pure (first :: others)

/-- The largest number that an id can be. -/
def maxNumber : Nat := wordBound - 1

/-- The id that a literal stands for in a collection with ids of a kind. -/
def literalId? (kind : IdKind) (literal : Literal) : Option DocId :=
  match kind, literal with
  | .incr, .number (.finite x) =>
    if x.units > 0 && x.isWhole then some (.number (min x.wholePart maxNumber)) else none
  | .incr, .text text =>
    match readNatBelow? wordBound text with
    | some (n + 1) => some (.number (n + 1))
    | _ => none
  | .uid, .number (.finite x) =>
    if x.units ≥ 0 && x.isWhole then some (.text (toString (min x.wholePart maxNumber))) else none
  | .uid, .text text => if text.isEmpty then none else some (.text text)
  | _, _ => none

/-- Replace the reference to a given id. -/
def updateReferences (path collection : String) (kind : IdKind) (e : Expression)
    (current updates : List Value) : Except Error (List Value) := do
  match literalId? kind e.literal with
  | none => refuse (.notId path)
  | some id =>
    let replacement := asReference collection (← single path updates)
    let test := fun item : Value => item.referenceId? == some id
    if current.any test then
      pure (collapse Value.referenceId? (editFirst test (fun _ => replacement) current))
    else .error (.notFound collection id.label)

/-- The updates of documents, the first of them at an index, have ids. -/
def withIds (path : String) (index : Nat) : List Object → Except Error (List (DocId × Object))
  | [] => pure []
  | update :: rest =>
    match Object.id? update with
    | some id => do
      let others ← withIds path (index + 1) rest
      pure ((id, update) :: others)
    | none => .error (.violation (path ++ "." ++ toString index) (.updateWithout idKey))

/-- Lay each update over the first document with its id. -/
def overlayDocuments (collection : String) :
    List (DocId × Object) → List Value → Except Error (List Value)
  | [], items => pure items
  | (id, update) :: rest, items =>
    let test := fun item => DocId.ofIdOrObject? item == some id
    if items.any test then
      overlayDocuments collection rest (editFirst test (overlay update) items)
    else .error (.notFound collection id.label)

/-- A value in a message about what was not found. -/
def plainText (value : Value) : String :=
  match value with
  | .string s => s
  | other => other.text

/-- Lay each update, the first of them at an index, over all objects with the same value of a
key. -/
def overlayObjects (path key : String) (index : Nat) :
    List Object → List Value → Except Error (List Value)
  | [], items => pure items
  | update :: rest, items =>
    match Object.value? update key with
    | none => .error (.violation (path ++ "." ++ toString index) (.updateWithout key))
    | some wanted =>
      let test := fun item : Value => ((item.field? key).map (Value.same · wanted)).getD false
      if items.any test then
        overlayObjects path key (index + 1) rest
          (items.map fun item => if test item then overlay update item else item)
      else .error (.notFound path (plainText wanted))

/-- The items of a list after the updates of those that a key chooses. -/
def updateByKey (path : String) (element : Element) (key : String) (current updates : List Value) :
    Except Error (List Value) :=
  match element with
  | .reference _ _ => refuse (.referenceMatcher path)
  | .document collection =>
    if key ≠ idKey then refuse (.documentKey path key)
    else do
      let updates ← withIds path 0 (← allFields path 0 updates)
      overlayDocuments collection updates current
  | .object fields =>
    if !Fields.declares fields key then refuse (.undeclaredKey path key)
    else do
      let updates ← allFields path 0 updates
      overlayObjects path key 0 updates current
  | element => refuse (.keyOfItems path element.listName key)

/-- The items of a list after the update of those that an expression chooses. -/
def updateByExpression (path : String) (element : Element) (e : Expression)
    (current updates : List Value) : Except Error (List Value) :=
  match element with
  | .reference collection kind =>
    if e.addressesItem && e.operator = .strictEq then
      updateReferences path collection kind e current updates
    else refuse (.referenceMatcher path)
  | .document _ =>
    if e.addressesItem then refuse (.documentItem path)
    else if e.path = idKey then refuse (.documentId path)
    else do
      let update ← updateFields path (← single path updates)
      if update.isEmpty then .error (.violation path .emptyUpdate)
      else if Object.has update idKey then
        .error (.violation (path ++ "." ++ idKey) .matchedIdChanges)
      else pure (e.edit (overlay update) current)
  | .object _ =>
    if e.addressesItem then refuse (.objectItem path)
    else do
      let update ← updateFields path (← single path updates)
      pure (e.edit (overlay update) current)
  | .any => do
    let replacement ← single path updates
    pure (e.edit (fun _ => replacement) current)
  | element =>
    if !e.addressesItem then refuse (.fieldOfItems path element.listName)
    else do
      let replacement ← single path updates
      pure (e.edit (fun _ => replacement) current)

/-- The items of a list after the updates of those that a matcher chooses. -/
def update (path : String) (element : Element) (matcher : Matcher) (current updates : List Value) :
    Except Error (List Value) :=
  match matcher with
  | .custom edit => pure (edit current)
  | .expression e =>
    match Matcher.checkOperator e.operator with
    | .ok _ => updateByExpression path element e current updates
    | .error fault => refuse fault
  | .key key => updateByKey path element key current updates

end Listing

end DocumentDb
