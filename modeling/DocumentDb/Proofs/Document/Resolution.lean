import DocumentDb.Proofs.Document.Blame
import DocumentDb.Proofs.Document.Embedding
import DocumentDb.Proofs.Schema.Closed

/-!
# Building never meets an unknown collection

Where the schemas are closed, every collection that building comes to is one of the database: the
nodes that it goes through resolve. So whatever the input is, building fails because of the input,
or because a look at the store fails (`Context.Foreseen`). One law for each function of the builder,
by recursion over the input and the schema as the builder itself recurses.
-/

namespace DocumentDb

/-- **The errors that work on documents can end with**: the input is to blame, or a look at the
store has failed. -/
def Context.Foreseen (context : Context) (e : Error) : Prop :=
  e.OfInput ∨ (∃ collection, context.state collection = .error e) ∨
    ∃ collection id, context.fetch collection id = .error e

namespace Build

/-- A step fails only with errors that are foreseen. -/
def Foresees {α : Type} (context : Context) (step : Build α) : Prop :=
  ∀ work, Ensures (step context) work (fun _ _ => True) fun e _ => context.Foreseen e

section Steps
variable {context : Context} {α β : Type}

theorem foresees_pure {a : α} : Foresees context (pure a) := fun _ => trivial

theorem foresees_error {result : Except Error α}
    (h : ∀ e, result = .error e → context.Foreseen e) : Foresees context (lift result) := by
  intro work
  cases result with
  | error e => exact h e rfl
  | ok a => trivial

theorem foresees_lift {result : Except Error α} (h : Blames result) :
    Foresees context (lift result) :=
  foresees_error fun e he => Or.inl (h e he)

theorem foresees_fail {e : Error} (h : e.OfInput) : Foresees context (fail e : Build α) :=
  foresees_lift (blames_error h)

theorem Foresees.bind {first : Build α} {next : α → Build β} (hfirst : Foresees context first)
    (hnext : ∀ a, Foresees context (next a)) : Foresees context (first >>= next) :=
  fun work => (hfirst work).bind fun a after _ => hnext a after

theorem Foresees.map {step : Build α} {f : α → β} (h : Foresees context step) :
    Foresees context (f <$> step) :=
  fun work => ensures_map.mpr (h work)

theorem foresees_modify {f : Work → Work} : Foresees context (modify f : Build PUnit) :=
  fun _ => trivial

theorem foresees_read {next : Context → Build β} (hnext : Foresees context (next context)) :
    Foresees context (read >>= next) := hnext

theorem foresees_get : Foresees context (get : Build Work) := fun _ => trivial

end Steps

section Single
variable {context : Context} {path collection : String} {α : Type}

theorem missing_foresees : Foresees context (missing path : Build α) := foresees_fail .violation

theorem mismatch_foresees {expectation : Expectation} {value : Value} :
    Foresees context (mismatch path expectation value : Build α) := foresees_fail .mismatch

theorem absent_foresees {required : Bool} : Foresees context (absent path required) := by
  unfold absent
  split_ifs
  · exact missing_foresees
  · exact foresees_pure

theorem keepNull_foresees {required : Bool} : Foresees context (keepNull path required) := by
  unfold keepNull
  split_ifs
  · exact missing_foresees
  · exact foresees_pure

theorem buildUntyped_foresees {rules : Rules} {value? : Option Value} :
    Foresees context (buildUntyped path rules value?) := by
  have hcheck : ∀ value, Foresees context (buildUntyped.check path rules value) := by
    intro value
    unfold buildUntyped.check
    split
    · exact (foresees_lift Rules.checkItems_blames).bind fun _ => foresees_pure
    · exact mismatch_foresees
  unfold buildUntyped
  split
  · exact foresees_pure
  · exact hcheck _
  · exact hcheck _
  · exact absent_foresees

theorem inputObject_foresees {raw : Value} : Foresees context (inputObject collection raw) := by
  unfold inputObject
  split
  · exact foresees_pure
  · exact mismatch_foresees

theorem lookup_foresees {id : DocId} : Foresees context (lookup collection id) := by
  refine foresees_get.bind fun work => ?_
  split
  · exact foresees_pure
  · refine foresees_read (Foresees.bind (foresees_error fun e he => ?_) fun found => ?_)
    · exact Or.inr (Or.inr ⟨collection, id, he⟩)
    · split
      · exact foresees_pure
      · exact foresees_fail .notFound

/-! ### Steps on known collections -/

variable {tree : Tree} (htree : context.registry.tree? collection = some tree)
include htree

theorem foresees_tree {next : Tree → Build α} (hnext : Foresees context (next tree)) :
    Foresees context (Build.tree collection >>= next) := by
  intro work
  unfold Ensures
  rw [bind_of_ok (tree_of_ok (Registry.tree_ok_iff.mpr htree))]
  exact hnext work

theorem space_foresees : Foresees context (space collection) := by
  refine foresees_get.bind fun work => ?_
  split
  · exact foresees_pure
  · refine foresees_tree htree (foresees_read ?_)
    refine Foresees.bind (foresees_error fun e he => ?_) fun _ => ?_
    · exact Or.inr (Or.inl ⟨collection, he⟩)
    · exact foresees_modify.bind fun _ => foresees_pure

theorem generateId_foresees : Foresees context (generateId collection) := by
  refine (space_foresees htree).bind fun space => foresees_read (foresees_get.bind fun work => ?_)
  dsimp only
  refine foresees_modify.bind fun _ => (foresees_lift IdSpace.generate_blames).bind fun _ => ?_
  exact foresees_modify.bind fun _ => foresees_pure

theorem newId_foresees {input : Object} : Foresees context (newId path collection input) := by
  have hclaim : ∀ value, Foresees context (claimId collection (joinPath path idKey) value) :=
    fun value => (space_foresees htree).bind fun _ =>
      (foresees_lift IdSpace.claim_blames).bind fun _ =>
        foresees_modify.bind fun _ => foresees_pure
  unfold newId
  split
  · exact generateId_foresees htree
  · exact generateId_foresees htree
  · exact hclaim _

theorem checkSize_foresees {document : Document} :
    Foresees context (checkSize collection document) := by
  refine (space_foresees htree).bind fun space => ?_
  dsimp only
  split_ifs
  · exact foresees_fail .capacity
  · exact foresees_pure

theorem checkReference_foresees {value : Value} :
    Foresees context (checkReference path collection value) :=
  (space_foresees htree).bind fun _ => foresees_lift IdSpace.checkReference_blames

end Single

/-! ### The builder -/

/-- The document that an absent field refers to is of a collection that the node resolves to. -/
theorem injected?_resolves {registry : Registry} {node : Node} {scope : Scope} {owner : Owner}
    (h : injected? node scope = some owner) (hnode : node.Resolves registry) :
    ∃ tree, registry.tree? owner.collection = some tree := by
  unfold injected? at h
  split at h
  · split_ifs at h with hcollection
    cases h
    obtain ⟨tree, htree, -⟩ := hnode
    exact ⟨tree, hcollection ▸ htree⟩
  · cases h

section Builder
variable {context : Context}

mutual

theorem insertDocument_foresees (hclosed : context.registry.Closed) (path collection : String)
    (input : Object) (inject : Option Owner)
    (hknown : ∃ tree, context.registry.tree? collection = some tree) :
    Foresees context (insertDocument path collection input inject) := by
  obtain ⟨tree, htree⟩ := hknown
  rw [insertDocument]
  refine foresees_tree htree ((newId_foresees htree).bind fun id => ?_)
  have hfields := fun scope reserved =>
    buildFields_foresees hclosed path tree.fields input scope reserved (hclosed.tree? htree)
  refine (hfields _ _).bind fun fields => foresees_read ?_
  exact (checkSize_foresees htree).bind fun _ => foresees_pure
termination_by (sizeOf input, 2, 0)

theorem updateDocument_foresees (hclosed : context.registry.Closed) (path collection : String)
    (existing : Document) (patch : Object)
    (hknown : ∃ tree, context.registry.tree? collection = some tree) :
    Foresees context (updateDocument path collection existing patch) := by
  obtain ⟨tree, htree⟩ := hknown
  rw [updateDocument]
  refine foresees_tree htree ?_
  have hfields := fun scope reserved =>
    mergeFields_foresees hclosed path tree.fields existing patch scope reserved
      (hclosed.tree? htree)
  split
  · exact foresees_fail .violation
  · refine (foresees_lift checkSameId_blames).bind fun _ => (hfields _ _).bind fun merged => ?_
    exact foresees_read ((checkSize_foresees htree).bind fun _ => foresees_pure)
termination_by (sizeOf patch, 2, 0)

theorem buildFields_foresees (hclosed : context.registry.Closed) (path : String) (fields : Fields)
    (input : Object) (scope : Scope) (reserved : List String)
    (hfields : fields.Closed context.registry) :
    Foresees context (buildFields path fields input scope reserved) := by
  rw [buildFields]
  refine (buildDeclared_foresees hclosed path fields input scope hfields).bind fun declared => ?_
  exact (foresees_lift (passThrough_blames _)).bind fun _ => foresees_pure
termination_by (sizeOf input, 1, 2 * sizeOf fields + 1)

theorem buildDeclared_foresees (hclosed : context.registry.Closed) (path : String)
    (fields : List (String × Node)) (input : Object) (scope : Scope)
    (hfields : Fields.Closed context.registry fields) :
    Foresees context (buildDeclared path fields input scope) := by
  match fields with
  | [] =>
    rw [buildDeclared]
    exact foresees_pure
  | (name, node) :: rest =>
    rw [buildDeclared]
    obtain ⟨hnode, hrest⟩ := List.forall_mem_cons.mp hfields
    refine (buildField_foresees hclosed path name node input scope hnode).bind fun built => ?_
    exact (buildDeclared_foresees hclosed path rest input scope hrest).bind fun _ => foresees_pure
termination_by (sizeOf input, 1, 2 * sizeOf fields)

theorem buildField_foresees (hclosed : context.registry.Closed) (path name : String) (node : Node)
    (input : Object) (scope : Scope) (hnode : node.Throughout (Node.Resolves context.registry)) :
    Foresees context (buildField path name node input scope) := by
  rw [buildField]
  split
  · next value hvalue =>
    have smaller := Object.sizeOf_lt_of_value?_eq_some hvalue
    exact buildValue_foresees hclosed (joinPath path name) node (some value) scope hnode
  · split
    · next owner howner =>
      obtain ⟨tree, htree⟩ := injected?_resolves howner hnode.self
      exact (checkReference_foresees htree).map
    · exact buildValue_foresees hclosed (joinPath path name) node none scope hnode
termination_by (sizeOf input, 1, 2 * sizeOf node + 1)
decreasing_by
  · exact Prod.Lex.left _ _ (by simpa using smaller)
  · have positive : 1 ≤ sizeOf input := by cases input <;> simp; omega
    rcases Nat.lt_or_eq_of_le positive with more | same
    · exact Prod.Lex.left _ _ (by simpa using more)
    · rw [← same]
      exact Prod.Lex.right _ (Prod.Lex.right _ (by omega))

theorem mergeFields_foresees (hclosed : context.registry.Closed) (path : String) (fields : Fields)
    (target patch : Object) (scope : Scope) (reserved : List String)
    (hfields : fields.Closed context.registry) :
    Foresees context (mergeFields path fields target patch scope reserved) := by
  match patch with
  | [] =>
    rw [mergeFields]
    exact foresees_pure
  | (key, value) :: rest =>
    have hrest := fun target =>
      mergeFields_foresees hclosed path fields target rest scope reserved hfields
    rw [mergeFields]
    by_cases hreserved : reserved.contains key = true
    · rw [if_pos hreserved]
      exact hrest target
    rw [if_neg hreserved]
    split
    · next inner hinner =>
      have hnode := hfields _ (Fields.mem_of_node? hinner)
      split
      · next nestedPatch =>
        exact (mergeFields_foresees hclosed _ inner _ nestedPatch _ _ hnode.field).bind
          fun _ => hrest _
      · exact mismatch_foresees
    · next node _ hnode =>
      have hnode := hfields _ (Fields.mem_of_node? hnode)
      refine (buildValue_foresees hclosed _ node (some value) scope hnode).bind fun built => ?_
      cases built with
      | some built => exact hrest _
      | none => exact hrest _
    · by_cases hstrict : scope.strict = true
      · rw [if_pos hstrict]
        exact foresees_fail .violation
      · rw [if_neg hstrict]
        exact hrest _
termination_by (sizeOf patch, 1, 0)

theorem buildValue_foresees (hclosed : context.registry.Closed) (path : String) (node : Node)
    (value? : Option Value) (scope : Scope)
    (hnode : node.Throughout (Node.Resolves context.registry)) :
    Foresees context (buildValue path node value? scope) := by
  match node with
  | .scalar _ _ =>
    unfold buildValue
    exact foresees_lift Rules.castField_blames
  | .array _ =>
    unfold buildValue
    exact buildUntyped_foresees
  | .reference collection _ _ =>
    obtain ⟨tree, htree, -⟩ := hnode.self
    unfold buildValue
    split
    · exact absent_foresees
    · exact keepNull_foresees
    · exact (buildReference_foresees hclosed path collection _ ⟨tree, htree⟩).map
  | .document collection _ =>
    unfold buildValue
    split
    · exact absent_foresees
    · exact keepNull_foresees
    · exact (embedDocument_foresees hclosed path collection _ _ hnode.self).bind
        fun _ => foresees_pure
    · exact mismatch_foresees
  | .list element =>
    unfold buildValue
    split
    · exact foresees_pure
    · exact foresees_pure
    · exact (buildItems_foresees hclosed path element _ scope hnode.item).bind
        fun _ => foresees_pure
    · exact mismatch_foresees
  | .nested fields =>
    match value? with
    | none | some .null =>
      rw [buildValue]
      exact (buildFields_foresees hclosed path fields [] _ _ hnode.field).bind
        fun _ => foresees_pure
    | some (.object input) =>
      rw [buildValue]
      exact (buildFields_foresees hclosed path fields input _ _ hnode.field).bind
        fun _ => foresees_pure
    | some (.bool _) | some (.number _) | some (.string _) | some (.array _) =>
      unfold buildValue
      exact mismatch_foresees
termination_by (sizeOf value?, 1, 2 * sizeOf node)

theorem buildItems_foresees (hclosed : context.registry.Closed) (path : String)
    (element : Element) (items : List Value) (scope : Scope)
    (helement : element.asNode.Throughout (Node.Resolves context.registry)) :
    Foresees context (buildItems path element items scope) := by
  match element with
  | .any =>
    unfold buildItems
    exact foresees_pure
  | .scalar _ _ =>
    unfold buildItems
    exact foresees_lift (castItems_blames _ _)
  | .reference collection _ =>
    obtain ⟨tree, htree, -⟩ := helement.self
    rw [buildItems]
    exact (buildReferences_foresees hclosed path collection 0 items ⟨tree, htree⟩).bind
      fun _ => foresees_pure
  | .document collection =>
    rw [buildItems]
    exact (buildDocuments_foresees hclosed path collection 0 items scope helement.self).bind
      fun _ => foresees_pure
  | .object fields =>
    rw [buildItems]
    exact buildObjects_foresees hclosed path fields 0 items scope helement.field
  | .list inner =>
    rw [buildItems]
    exact buildRows_foresees hclosed path inner 0 items scope helement.item
termination_by (sizeOf items, 1, sizeOf element)

theorem buildReferences_foresees (hclosed : context.registry.Closed) (path collection : String)
    (index : Nat) (items : List Value)
    (hknown : ∃ tree, context.registry.tree? collection = some tree) :
    Foresees context (buildReferences path collection index items) := by
  match items with
  | [] =>
    rw [buildReferences]
    exact foresees_pure
  | item :: rest =>
    rw [buildReferences]
    refine (buildReference_foresees hclosed _ collection item hknown).bind fun _ => ?_
    exact (buildReferences_foresees hclosed path collection (index + 1) rest hknown).bind
      fun _ => foresees_pure
termination_by (sizeOf items, 0, 0)

theorem buildDocuments_foresees (hclosed : context.registry.Closed) (path collection : String)
    (index : Nat) (items : List Value) (scope : Scope)
    (hknown : ∃ tree, context.registry.tree? collection = some tree) :
    Foresees context (buildDocuments path collection index items scope) := by
  match items with
  | [] =>
    rw [buildDocuments]
    exact foresees_pure
  | .object input :: rest =>
    rw [buildDocuments]
    refine (embedDocument_foresees hclosed _ collection input _ hknown).bind fun _ => ?_
    exact (buildDocuments_foresees hclosed path collection (index + 1) rest scope hknown).bind
      fun _ => foresees_pure
  | .null :: _ | .bool _ :: _ | .number _ :: _ | .string _ :: _ | .array _ :: _ =>
    unfold buildDocuments
    exact mismatch_foresees
termination_by (sizeOf items, 0, 0)

theorem buildObjects_foresees (hclosed : context.registry.Closed) (path : String) (fields : Fields)
    (index : Nat) (items : List Value) (scope : Scope)
    (hfields : fields.Closed context.registry) :
    Foresees context (buildObjects path fields index items scope) := by
  match items with
  | [] =>
    rw [buildObjects]
    exact foresees_pure
  | .object input :: rest =>
    rw [buildObjects]
    refine (buildFields_foresees hclosed _ fields input _ _ hfields).bind fun _ => ?_
    exact (buildObjects_foresees hclosed path fields (index + 1) rest scope hfields).bind
      fun _ => foresees_pure
  | .null :: _ | .bool _ :: _ | .number _ :: _ | .string _ :: _ | .array _ :: _ =>
    unfold buildObjects
    exact mismatch_foresees
termination_by (sizeOf items, 0, 0)

theorem buildRows_foresees (hclosed : context.registry.Closed) (path : String) (element : Element)
    (index : Nat) (items : List Value) (scope : Scope)
    (helement : element.asNode.Throughout (Node.Resolves context.registry)) :
    Foresees context (buildRows path element index items scope) := by
  match items with
  | [] =>
    rw [buildRows]
    exact foresees_pure
  | .array row :: rest =>
    rw [buildRows]
    refine (buildItems_foresees hclosed _ element row scope helement).bind fun _ => ?_
    exact (buildRows_foresees hclosed path element (index + 1) rest scope helement).bind
      fun _ => foresees_pure
  | .null :: _ | .bool _ :: _ | .number _ :: _ | .string _ :: _ | .object _ :: _ =>
    unfold buildRows
    exact mismatch_foresees
termination_by (sizeOf items, 0, 0)

theorem buildReference_foresees (hclosed : context.registry.Closed) (path collection : String)
    (value : Value) (hknown : ∃ tree, context.registry.tree? collection = some tree) :
    Foresees context (buildReference path collection value) := by
  unfold buildReference
  split_ifs
  · obtain ⟨tree, htree⟩ := hknown
    exact checkReference_foresees htree
  · match value with
    | .object input =>
      refine (embedDocument_foresees hclosed path collection input none hknown).bind
        fun document => ?_
      split
      · exact foresees_pure
      · exact foresees_fail .violation
    | .null | .bool _ | .number _ | .string _ | .array _ => exact mismatch_foresees
termination_by (sizeOf value, 0, 0)

/-- **Embedding a document of a known collection** meets no unknown one. -/
theorem embedDocument_foresees (hclosed : context.registry.Closed) (path collection : String)
    (input : Object) (inject : Option Owner)
    (hknown : ∃ tree, context.registry.tree? collection = some tree) :
    Foresees context (embedDocument path collection input inject) := by
  have hcreate := createEmbedded_foresees hclosed path collection input inject hknown
  have hupdate := fun stored =>
    updateDocument_foresees hclosed path collection stored input hknown
  obtain ⟨tree, htree⟩ := hknown
  rw [embedDocument]
  split
  · exact hcreate
  · exact hcreate
  · refine (space_foresees htree).bind fun space => ?_
    refine (foresees_lift IdSpace.cast_blames).bind fun id => ?_
    split_ifs
    · refine lookup_foresees.bind fun stored => ?_
      split_ifs
      · exact foresees_pure
      · exact (hupdate _).bind fun _ => foresees_modify.bind fun _ => foresees_pure
    · exact hcreate
termination_by (sizeOf input, 4, 0)

theorem createEmbedded_foresees (hclosed : context.registry.Closed) (path collection : String)
    (input : Object) (inject : Option Owner)
    (hknown : ∃ tree, context.registry.tree? collection = some tree) :
    Foresees context (createEmbedded path collection input inject) := by
  rw [createEmbedded]
  refine (insertDocument_foresees hclosed path collection input inject hknown).bind fun _ => ?_
  exact foresees_modify.bind fun _ => foresees_pure
termination_by (sizeOf input, 3, 0)

end

end Builder

/-! ### Entry points -/

section Entries
variable {context : Context} (hclosed : context.registry.Closed) {collection : String}
include hclosed

theorem create_foresees (hknown : ∃ tree, context.registry.tree? collection = some tree)
    (raw : Value) : Foresees context (create collection raw) :=
  inputObject_foresees.bind fun input =>
    insertDocument_foresees hclosed "" collection input none hknown

theorem change_foresees (hknown : ∃ tree, context.registry.tree? collection = some tree)
    (existing : Document) (raw : Value) : Foresees context (change collection existing raw) :=
  inputObject_foresees.bind fun patch =>
    updateDocument_foresees hclosed "" collection existing patch hknown

theorem changeNamed_foresees (hknown : ∃ tree, context.registry.tree? collection = some tree)
    (raw : Value) : Foresees context (changeNamed collection raw) := by
  refine inputObject_foresees.bind fun patch => ?_
  split
  · exact foresees_fail .violation
  · have hupdate := fun existing =>
      updateDocument_foresees hclosed "" collection existing patch hknown
    obtain ⟨tree, htree⟩ := hknown
    refine (space_foresees htree).bind fun space => ?_
    refine (foresees_lift IdSpace.cast_blames).bind fun id => ?_
    exact lookup_foresees.bind fun existing => hupdate existing

omit hclosed in
/-- Adding values to a list whose elements resolve. -/
theorem insert_foresees {path : String} {element : Element} {current values : List Value}
    (helement : element.asNode.Throughout (Node.Resolves context.registry)) :
    Foresees context (Listing.insert path element current values) := by
  unfold Listing.insert
  split
  · exact foresees_pure
  · obtain ⟨tree, htree⟩ := helement.self
    refine (space_foresees htree).bind fun space => ?_
    exact (foresees_lift (Listing.checkDocuments_blames _ _)).bind fun _ => foresees_pure
  · exact foresees_pure

end Entries

end Build

/-! ### Elements of lists -/

theorem Fields.follow?_closed {registry : Registry} {fields : Fields} {segments : List String}
    {node : Node} (hfollow : fields.follow? segments = some node)
    (hfields : fields.Closed registry) : node.Throughout (Node.Resolves registry) := by
  fun_induction Fields.follow? fields segments with
  | case1 => cases hfollow
  | case2 fields name => exact hfields _ (Fields.mem_of_node? hfollow)
  | case3 fields name rest _ inner hinner ih =>
    exact ih hfollow (hfields _ (Fields.mem_of_node? hinner)).field
  | case4 => cases hfollow

/-- The elements of a list field resolve. -/
theorem Tree.element_closed {registry : Registry} {tree : Tree} {path : String}
    {element : Element} (h : tree.element path = .ok element)
    (hfields : tree.fields.Closed registry) :
    element.asNode.Throughout (Node.Resolves registry) := by
  have hat : ∀ node, tree.at? path = some (.field node) →
      node.Throughout (Node.Resolves registry) := by
    intro node hnode
    unfold Tree.at? at hnode
    split at hnode
    · split_ifs at hnode
      · cases hnode
      · obtain ⟨found, hfound, heq⟩ := Option.map_eq_some_iff.mp hnode
        cases heq
        exact Fields.follow?_closed hfound hfields
    · cases hnode
  unfold Tree.element at h
  split at h
  · next node hnode =>
    cases node with
    | array rules =>
      cases h
      exact Node.throughout_scalar trivial
    | list element =>
      cases h
      exact (hat _ hnode).item
    | _ => cases h
  · cases h
  · cases h

end DocumentDb
