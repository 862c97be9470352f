import DocumentDb.Document.Work
import DocumentDb.Schema.Casting

/-!
# Building documents

Raw input is built into documents field by field along the schema. A new document gets an id and all
declared fields; an update changes only the fields that the patch has. An object in the place of an
embedded document or of a reference is a document of another collection: it is created, or changed
if it names an id in use, and waits to be stored before the document around it.

Every recursion goes into a smaller part of the input, or, where there is no input left, into a
smaller part of the schema, so building ends for all schemas, cyclic ones included.
-/

namespace DocumentDb

/-- A value found in an object is smaller than the object. -/
theorem Object.sizeOf_lt_of_value?_eq_some {fields : Object} {key : String} {value : Value}
    (h : Object.value? fields key = some value) : 1 + sizeOf value < sizeOf fields := by
  induction fields with
  | nil => simp [Object.value?] at h
  | cons field rest ih =>
    obtain ⟨name, first⟩ := field
    simp only [Object.value?] at h
    split at h
    · cases h
      simp
      omega
    · have := ih h
      simp
      omega

/-! ### Paths and scopes -/

/-- The path of a field inside an object; the root has an empty path. -/
def joinPath (path name : String) : String := if path.isEmpty then name else path ++ "." ++ name

/-- The path of an item of an array. -/
def itemPath (path : String) (index : Nat) : String := path ++ "." ++ toString index

/-- The document that fields belong to. -/
structure Owner where
  collection : String
  id : DocId

/-- Where in a document fields stand. -/
structure Scope where
  /-- Whether undeclared fields are refused. -/
  strict : Bool
  owner : Owner
  /-- The document that absent references to its collection refer to, if there is one. -/
  inject : Option Owner
  /-- Whether the fields are those of the document itself. -/
  top : Bool

namespace Scope

/-- The scope of the fields of a nested object; references are filled in one level deep. -/
def nested (scope : Scope) : Scope :=
  { scope with inject := if scope.top then scope.inject else none, top := false }

/-- The scope of the fields of an object in a list. -/
def element (scope : Scope) : Scope := { scope with inject := none, top := false }

end Scope

/-- The document that an absent field refers to, if it is a reference to the collection of the one
to be filled in. -/
def injected? (node : Node) (scope : Scope) : Option Owner :=
  match node, scope.inject with
  | .reference collection _ _, some owner =>
    if collection = owner.collection then some owner else none
  | _, _ => none

namespace Build

/-! ### Single steps -/

/-- Fail because a required field is absent or null. -/
def missing {α : Type} (path : String) : Build α := fail (.violation path .required)

/-- Fail because a value has the wrong shape. -/
def mismatch {α : Type} (path : String) (expectation : Expectation) (value : Value) : Build α :=
  fail (.mismatch path (.expected expectation value))

/-- Leave out a field that is absent. -/
def absent (path : String) (required : Bool) : Build (Option Value) :=
  if required then missing path else pure none

/-- Keep a null. -/
def keepNull (path : String) (required : Bool) : Build (Option Value) :=
  if required then missing path else pure (some .null)

/-- The fields of raw input for a document. -/
def inputObject (collection : String) (raw : Value) : Build Object :=
  match raw with
  | .object fields => pure fields
  | other => mismatch collection .document other

/-- Check a value that is meant as a reference to a collection. -/
def checkReference (path collection : String) (value : Value) : Build Value := do
  lift ((← space collection).checkReference path value)

/-- The undeclared fields of the input, which pass through unless the schema is strict. -/
def passThrough (path : String) (fields : Fields) (reserved : List String) (strict : Bool) :
    Object → Except Error Object
  | [] => pure []
  | (key, value) :: rest =>
    if fields.declares key || reserved.contains key then
      passThrough path fields reserved strict rest
    else if strict then .error (.violation (joinPath path key) .undeclared)
    else do
      let others ← passThrough path fields reserved strict rest
      pure ((key, value) :: others)

/-- Cast the items of a list of single values. -/
def castItems (path : String) (kind : ScalarKind) (rules : Rules) (index : Nat) :
    List Value → Except Error (List Value)
  | [] => pure []
  | item :: rest => do
    let first ← rules.cast (itemPath path index) kind item
    let others ← castItems path kind rules (index + 1) rest
    pure (first :: others)

/-- Build the value of an untyped list. -/
def buildUntyped (path : String) (rules : Rules) (value? : Option Value) : Build (Option Value) :=
  match value?, rules.fallback with
  | some .null, _ => pure (some (.array []))
  | some value, _ => check value
  | none, some value => check value
  | none, none => absent path rules.required
where
  check (value : Value) : Build (Option Value) :=
    match value with
    | .array items => do
      lift (rules.checkItems path items)
      pure (some (.array items))
    | other => mismatch path .array other

/-- The id of a new document: the one in the input, or else a generated one. -/
def newId (path collection : String) (input : Object) : Build DocId :=
  match Object.value? input idKey with
  | none | some .null => generateId collection
  | some value => claimId collection (joinPath path idKey) value

/-- The id in a patch, if there is one, is the one of the document. -/
def checkSameId (path : String) (id : DocId) (patch : Object) : Except Error Unit :=
  match Object.value? patch idKey with
  | none => pure ()
  | some .null => .error (.violation (joinPath path idKey) .nullId)
  | some value =>
    if DocId.ofValue? value = some id then pure ()
    else .error (.violation (joinPath path idKey) (.immutableId id value))

/-- The document with the times that its collection keeps for a new one. -/
def stampNew (tree : Tree) (now : Instant) (document : Document) : Document :=
  let document :=
    if tree.settings.createdAt then document.put createdKey (.string now.text) else document
  if tree.settings.updatedAt then document.put updatedKey (.string now.text) else document

/-- The document with the time that its collection keeps for a changed one. -/
def stampChanged (tree : Tree) (now : Instant) (document : Document) : Document :=
  if tree.settings.updatedAt then document.put updatedKey (.string now.text) else document

/-- Whether every field of the input is in the document already. -/
def changesNothing (input document : Object) : Bool :=
  input.all fun (key, value) =>
    match Object.value? document key with
    | some stored => Value.identical stored value
    | none => false

/-! ### Building -/

mutual

/-- Build a new document. -/
def insertDocument (path collection : String) (input : Object) (inject : Option Owner) :
    Build Document := do
  let tree ← tree collection
  let id ← newId path collection input
  let scope : Scope :=
    { strict := tree.settings.strict, owner := { collection, id }, inject, top := true }
  let fields ← buildFields path tree.fields input scope tree.managedKeys
  let document := stampNew tree (← read).now ((idKey, id.toValue) :: fields)
  checkSize collection document
  pure document
termination_by (sizeOf input, 2, 0)

/-- Change a document by a patch. -/
def updateDocument (path collection : String) (existing : Document) (patch : Object) :
    Build Document := do
  let tree ← tree collection
  match existing.id? with
  | none => fail (.violation idKey .noValidId)
  | some id =>
    lift (checkSameId path id patch)
    let scope : Scope :=
      { strict := tree.settings.strict, owner := { collection, id }, inject := none, top := true }
    let merged ← mergeFields path tree.fields existing patch scope tree.managedKeys
    let document := tree.order (stampChanged tree (← read).now merged)
    checkSize collection document
    pure document
termination_by (sizeOf patch, 2, 0)

/-- Build the declared fields of an object; undeclared ones follow them. -/
def buildFields (path : String) (fields : Fields) (input : Object) (scope : Scope)
    (reserved : List String) : Build Object := do
  let declared ← buildDeclared path fields input scope
  let others ← lift (passThrough path fields reserved scope.strict input)
  pure (declared ++ others)
termination_by (sizeOf input, 1, 2 * sizeOf fields + 1)

/-- Build declared fields in the order of their declaration. -/
def buildDeclared (path : String) (fields : List (String × Node)) (input : Object)
    (scope : Scope) : Build Object :=
  match fields with
  | [] => pure []
  | (name, node) :: rest => do
    let built ← buildField path name node input scope
    let others ← buildDeclared path rest input scope
    pure (match built with
      | some value => (name, value) :: others
      | none => others)
termination_by (sizeOf input, 1, 2 * sizeOf fields)

/-- Build a declared field. An absent reference to the document that is to be filled in is one to
it. -/
def buildField (path name : String) (node : Node) (input : Object) (scope : Scope) :
    Build (Option Value) :=
  match _h : Object.value? input name with
  | some value => buildValue (joinPath path name) node (some value) scope
  | none =>
    match injected? node scope with
    | some owner =>
      some <$> checkReference (joinPath path name) owner.collection
        (reference owner.collection owner.id)
    | none => buildValue (joinPath path name) node none scope
termination_by (sizeOf input, 1, 2 * sizeOf node + 1)
decreasing_by
  · have smaller := Object.sizeOf_lt_of_value?_eq_some _h
    exact Prod.Lex.left _ _ (by simpa using smaller)
  · have positive : 1 ≤ sizeOf input := by cases input <;> simp; omega
    rcases Nat.lt_or_eq_of_le positive with more | same
    · exact Prod.Lex.left _ _ (by simpa using more)
    · rw [← same]
      exact Prod.Lex.right _ (Prod.Lex.right _ (by omega))

/-- Apply a patch to fields; nested objects are merged field by field. -/
def mergeFields (path : String) (fields : Fields) (target : Object) (patch : Object)
    (scope : Scope) (reserved : List String) : Build Object :=
  match patch with
  | [] => pure target
  | (key, value) :: rest =>
    if reserved.contains key then mergeFields path fields target rest scope reserved
    else
      match fields.node? key with
      | some (.nested inner) =>
        match value with
        | .object nestedPatch => do
          let stored := ((Object.value? target key).bind Value.object?).getD []
          let merged ← mergeFields (joinPath path key) inner stored nestedPatch scope.nested []
          mergeFields path fields (target.put key (.object merged)) rest scope reserved
        | other => mismatch (joinPath path key) .object other
      | some node => do
        let target ← match ← buildValue (joinPath path key) node (some value) scope with
          | some built => pure (target.put key built)
          | none => pure (target.without key)
        mergeFields path fields target rest scope reserved
      | none =>
        if scope.strict then fail (.violation (joinPath path key) .undeclared)
        else mergeFields path fields (target.put key value) rest scope reserved
termination_by (sizeOf patch, 1, 0)

/-- Build the value of a field, which may be absent; no value means that the field is left out. -/
def buildValue (path : String) (node : Node) (value? : Option Value) (scope : Scope) :
    Build (Option Value) :=
  match node with
  | .scalar kind rules => lift (rules.castField path kind value?)
  | .array rules => buildUntyped path rules value?
  | .reference collection _ required =>
    match value? with
    | none => absent path required
    | some .null => keepNull path required
    | some value => some <$> buildReference path collection value
  | .document collection required =>
    match value? with
    | none => absent path required
    | some .null => keepNull path required
    | some (.object input) => do
      let document ← embedDocument path collection input (some scope.owner)
      pure (some (.object document))
    | some other => mismatch path (.embedded collection) other
  | .list element =>
    match value? with
    | none => pure none
    | some .null => pure (some (.array []))
    | some (.array items) => do
      let built ← buildItems path element items scope
      pure (some (.array built))
    | some other => mismatch path .array other
  | .nested fields =>
    match value? with
    | none => do
      let built ← buildFields path fields [] scope.nested []
      pure (if built.isEmpty then none else some (.object built))
    | some .null => do
      let built ← buildFields path fields [] scope.nested []
      pure (if built.isEmpty then none else some (.object built))
    | some (.object input) => do
      let built ← buildFields path fields input scope.nested []
      pure (some (.object built))
    | some other => mismatch path .object other
termination_by (sizeOf value?, 1, 2 * sizeOf node)

/-- Build the items of a list. Lists of references and of documents hold each id once. -/
def buildItems (path : String) (element : Element) (items : List Value) (scope : Scope) :
    Build (List Value) :=
  match element with
  | .any => pure items
  | .scalar kind rules => lift (castItems path kind rules 0 items)
  | .reference collection _ => do
    let built ← buildReferences path collection 0 items
    pure (collapse Value.referenceId? built)
  | .document collection => do
    let built ← buildDocuments path collection 0 items scope
    pure (collapse DocId.ofIdOrObject? built)
  | .object fields => buildObjects path fields 0 items scope
  | .list inner => buildRows path inner 0 items scope
termination_by (sizeOf items, 1, sizeOf element)

/-- Build references, the first of them at an index. -/
def buildReferences (path collection : String) (index : Nat) (items : List Value) :
    Build (List Value) :=
  match items with
  | [] => pure []
  | item :: rest => do
    let first ← buildReference (itemPath path index) collection item
    let others ← buildReferences path collection (index + 1) rest
    pure (first :: others)
termination_by (sizeOf items, 0, 0)

/-- Build embedded documents, the first of them at an index. -/
def buildDocuments (path collection : String) (index : Nat) (items : List Value)
    (scope : Scope) : Build (List Value) :=
  match items with
  | [] => pure []
  | .object input :: rest => do
    let first ← embedDocument (itemPath path index) collection input (some scope.owner)
    let others ← buildDocuments path collection (index + 1) rest scope
    pure (.object first :: others)
  | other :: _ => mismatch (itemPath path index) (.documentOf collection) other
termination_by (sizeOf items, 0, 0)

/-- Build objects, the first of them at an index. -/
def buildObjects (path : String) (fields : Fields) (index : Nat) (items : List Value)
    (scope : Scope) : Build (List Value) :=
  match items with
  | [] => pure []
  | .object input :: rest => do
    let first ← buildFields (itemPath path index) fields input scope.element []
    let others ← buildObjects path fields (index + 1) rest scope
    pure (.object first :: others)
  | other :: _ => mismatch (itemPath path index) .object other
termination_by (sizeOf items, 0, 0)

/-- Build lists, the first of them at an index. -/
def buildRows (path : String) (element : Element) (index : Nat) (items : List Value)
    (scope : Scope) : Build (List Value) :=
  match items with
  | [] => pure []
  | .array row :: rest => do
    let first ← buildItems (itemPath path index) element row scope
    let others ← buildRows path element (index + 1) rest scope
    pure (.array first :: others)
  | other :: _ => mismatch (itemPath path index) .array other
termination_by (sizeOf items, 0, 0)

/-- Build a reference. A value that is meant as one is checked; any other object is a document of
the collection. -/
def buildReference (path collection : String) (value : Value) : Build Value :=
  if value.isReference then checkReference path collection value
  else
    match value with
    | .object input => do
      let document ← embedDocument path collection input none
      match document.id? with
      | some id => pure (reference collection id)
      | none => fail (.violation idKey .noValidId)
    | other => mismatch path (.referenceOrObject collection) other
termination_by (sizeOf value, 0, 0)

/-- Build a document of another collection: create it, or change the one whose id it names. One that
changes nothing is taken as it is. -/
def embedDocument (path collection : String) (input : Object) (inject : Option Owner) :
    Build Document := do
  match Object.value? input idKey with
  | none | some .null => createEmbedded path collection input inject
  | some value =>
    let space ← space collection
    let id ← lift (space.cast (joinPath path idKey) value)
    if space.contains id then
      let stored ← lookup collection id
      if changesNothing input stored then pure stored
      else
        let document ← updateDocument path collection stored input
        push collection document
        pure document
    else createEmbedded path collection input inject
termination_by (sizeOf input, 4, 0)

/-- Create a document of another collection. -/
def createEmbedded (path collection : String) (input : Object) (inject : Option Owner) :
    Build Document := do
  let document ← insertDocument path collection input inject
  push collection document
  pure document
termination_by (sizeOf input, 3, 0)

end

/-! ### Entry points -/

/-- Create a document from raw input. -/
def create (collection : String) (raw : Value) : Build Document := do
  let input ← inputObject collection raw
  insertDocument "" collection input none

/-- Change a document by a raw patch. -/
def change (collection : String) (existing : Document) (raw : Value) : Build Document := do
  let patch ← inputObject collection raw
  updateDocument "" collection existing patch

/-- Change the document whose id the raw patch has. -/
def changeNamed (collection : String) (raw : Value) : Build Document := do
  let patch ← inputObject collection raw
  match Object.value? patch idKey with
  | none => fail (.violation idKey .requiredForUpdate)
  | some value =>
    let id ← lift ((← space collection).cast idKey value)
    let existing ← lookup collection id
    updateDocument "" collection existing patch

end Build

end DocumentDb
