import DocumentDb.Proofs.Document.Appending
import DocumentDb.Proofs.Document.Keeping

/-!
# Documents embedded on the way

Building input embeds documents of other collections: those in the places of embedded documents, and
those that stand for references. `Part` lists the parts of the input that the builder builds, and
`Part.Leads` says from which part, and at which work, it gets to which other one; so `Part.Embeds`
says that building a part comes to embed a document.

What waits right behind an embedded document keeps waiting, before what comes up later
(`Part.Embeds.pending`).
-/

namespace DocumentDb

/-! ### Parts of the input -/

/-- A part of the input that is built. -/
inductive Part where
  | insert (path collection : String) (input : Object) (inject : Option Owner)
  | update (path collection : String) (existing : Document) (patch : Object)
  | fields (path : String) (fields : Fields) (input : Object) (scope : Scope)
  | merge (path : String) (fields : Fields) (target patch : Object) (scope : Scope)
    (reserved : List String)
  | value (path : String) (node : Node) (value : Value) (scope : Scope)
  | items (path : String) (element : Element) (items : List Value) (scope : Scope)
  | references (path collection : String) (index : Nat) (items : List Value)
  | documents (path collection : String) (index : Nat) (items : List Value) (scope : Scope)
  | objects (path : String) (fields : Fields) (index : Nat) (items : List Value) (scope : Scope)
  | rows (path : String) (element : Element) (index : Nat) (items : List Value) (scope : Scope)
  | reference (path collection : String) (value : Value)
  | embed (path collection : String) (input : Object) (inject : Option Owner)

namespace Part

/-- The work that building a part leaves behind, whether it succeeds or fails. -/
def left (context : Context) (work : Work) : Part → Work
  | .insert path collection input inject =>
    (Build.insertDocument path collection input inject context work).2
  | .update path collection existing patch =>
    (Build.updateDocument path collection existing patch context work).2
  | .fields path declared input scope =>
    (Build.buildDeclared path declared input scope context work).2
  | .merge path declared target patch scope reserved =>
    (Build.mergeFields path declared target patch scope reserved context work).2
  | .value path node raw scope => (Build.buildValue path node (some raw) scope context work).2
  | .items path element list scope => (Build.buildItems path element list scope context work).2
  | .references path collection index list =>
    (Build.buildReferences path collection index list context work).2
  | .documents path collection index list scope =>
    (Build.buildDocuments path collection index list scope context work).2
  | .objects path declared index list scope =>
    (Build.buildObjects path declared index list scope context work).2
  | .rows path element index list scope =>
    (Build.buildRows path element index list scope context work).2
  | .reference path collection raw => (Build.buildReference path collection raw context work).2
  | .embed path collection input inject =>
    (Build.embedDocument path collection input inject context work).2

/-- **From building a part the builder gets to building another one.** What it has done in between
has succeeded. -/
inductive Leads (context : Context) : Part → Work → Part → Work → Prop
  | create {path collection : String} {input : Object} {inject : Option Owner} {work : Work}
    (hid : Object.value? input idKey = none ∨ Object.value? input idKey = some .null) :
    Leads context (.embed path collection input inject) work
      (.insert path collection input inject) work
  | createNamed {path collection : String} {input : Object} {inject : Option Owner}
    {work looked : Work} {value : Value} {space : IdSpace} {id : DocId}
    (hvalue : Object.value? input idKey = some value) (hnull : value ≠ .null)
    (hspace : Build.space collection context work = (.ok space, looked))
    (hcast : space.cast (joinPath path idKey) value = .ok id)
    (hunused : space.contains id = false) :
    Leads context (.embed path collection input inject) work
      (.insert path collection input inject) looked
  | change {path collection : String} {input : Object} {inject : Option Owner}
    {work looked found : Work} {value : Value} {space : IdSpace} {id : DocId} {stored : Document}
    (hvalue : Object.value? input idKey = some value) (hnull : value ≠ .null)
    (hspace : Build.space collection context work = (.ok space, looked))
    (hcast : space.cast (joinPath path idKey) value = .ok id) (hused : space.contains id = true)
    (hlookup : Build.lookup collection id context looked = (.ok stored, found))
    (hchanges : Build.changesNothing input stored = false) :
    Leads context (.embed path collection input inject) work
      (.update path collection stored input) found
  | inserted {path collection : String} {input : Object} {inject : Option Owner}
    {work taken : Work} {tree : Tree} {id : DocId}
    (htree : context.registry.tree collection = .ok tree)
    (hid : Build.newId path collection input context work = (.ok id, taken)) :
    Leads context (.insert path collection input inject) work
      (.fields path tree.fields input
        { strict := tree.settings.strict, owner := { collection, id }, inject, top := true }) taken
  | updated {path collection : String} {existing : Document} {patch : Object} {work : Work}
    {tree : Tree} {id : DocId} (htree : context.registry.tree collection = .ok tree)
    (hid : existing.id? = some id) (hsame : Build.checkSameId path id patch = .ok ()) :
    Leads context (.update path collection existing patch) work
      (.merge path tree.fields existing patch
        { strict := tree.settings.strict, owner := { collection, id }, inject := none,
          top := true } tree.managedKeys) work
  | field {path name : String} {node : Node} {rest : Fields} {input : Object} {scope : Scope}
    {work : Work} {value : Value} (hvalue : Object.value? input name = some value) :
    Leads context (.fields path ((name, node) :: rest) input scope) work
      (.value (joinPath path name) node value scope) work
  | otherFields {path name : String} {node : Node} {rest : Fields} {input : Object} {scope : Scope}
    {work next : Work} {built : Option Value}
    (hfirst : Build.buildField path name node input scope context work = (.ok built, next)) :
    Leads context (.fields path ((name, node) :: rest) input scope) work
      (.fields path rest input scope) next
  | mergeReserved {path key : String} {fields : Fields} {target rest : Object} {value : Value}
    {scope : Scope} {reserved : List String} {work : Work}
    (hreserved : reserved.contains key = true) :
    Leads context (.merge path fields target ((key, value) :: rest) scope reserved) work
      (.merge path fields target rest scope reserved) work
  | mergeNested {path key : String} {fields inner : Fields} {target nested rest : Object}
    {scope : Scope} {reserved : List String} {work : Work}
    (hreserved : reserved.contains key = false)
    (hnode : fields.node? key = some (.nested inner)) :
    Leads context (.merge path fields target ((key, .object nested) :: rest) scope reserved) work
      (.merge (joinPath path key) inner (((Object.value? target key).bind Value.object?).getD [])
        nested scope.nested []) work
  | mergedNested {path key : String} {fields inner : Fields} {target nested rest merged : Object}
    {scope : Scope} {reserved : List String} {work next : Work}
    (hreserved : reserved.contains key = false) (hnode : fields.node? key = some (.nested inner))
    (hnested : Build.mergeFields (joinPath path key) inner
      (((Object.value? target key).bind Value.object?).getD []) nested scope.nested [] context
      work = (.ok merged, next)) :
    Leads context (.merge path fields target ((key, .object nested) :: rest) scope reserved) work
      (.merge path fields (target.put key (.object merged)) rest scope reserved) next
  | mergeValue {path key : String} {fields : Fields} {target rest : Object} {value : Value}
    {node : Node} {scope : Scope} {reserved : List String} {work : Work}
    (hreserved : reserved.contains key = false) (hnode : fields.node? key = some node)
    (hnested : ∀ inner, node ≠ .nested inner) :
    Leads context (.merge path fields target ((key, value) :: rest) scope reserved) work
      (.value (joinPath path key) node value scope) work
  | mergedValue {path key : String} {fields : Fields} {target rest : Object} {value : Value}
    {node : Node} {scope : Scope} {reserved : List String} {work next : Work}
    {built : Option Value} (hreserved : reserved.contains key = false)
    (hnode : fields.node? key = some node) (hnested : ∀ inner, node ≠ .nested inner)
    (hbuilt : Build.buildValue (joinPath path key) node (some value) scope context work =
      (.ok built, next)) :
    Leads context (.merge path fields target ((key, value) :: rest) scope reserved) work
      (.merge path fields (built.elim (target.without key) (target.put key)) rest scope reserved)
      next
  | mergedUndeclared {path key : String} {fields : Fields} {target rest : Object} {value : Value}
    {scope : Scope} {reserved : List String} {work : Work}
    (hreserved : reserved.contains key = false) (hnode : fields.node? key = none)
    (hstrict : scope.strict = false) :
    Leads context (.merge path fields target ((key, value) :: rest) scope reserved) work
      (.merge path fields (target.put key value) rest scope reserved) work
  | referenceValue {path collection : String} {kind : IdKind} {required : Bool} {value : Value}
    {scope : Scope} {work : Work} (hnull : value ≠ .null) :
    Leads context (.value path (.reference collection kind required) value scope) work
      (.reference path collection value) work
  | documentValue {path collection : String} {required : Bool} {input : Object} {scope : Scope}
    {work : Work} :
    Leads context (.value path (.document collection required) (.object input) scope) work
      (.embed path collection input (some scope.owner)) work
  | listValue {path : String} {element : Element} {items : List Value} {scope : Scope}
    {work : Work} :
    Leads context (.value path (.list element) (.array items) scope) work
      (.items path element items scope) work
  | nestedValue {path : String} {fields : Fields} {input : Object} {scope : Scope} {work : Work} :
    Leads context (.value path (.nested fields) (.object input) scope) work
      (.fields path fields input scope.nested) work
  | referenceItems {path collection : String} {kind : IdKind} {items : List Value} {scope : Scope}
    {work : Work} :
    Leads context (.items path (.reference collection kind) items scope) work
      (.references path collection 0 items) work
  | documentItems {path collection : String} {items : List Value} {scope : Scope} {work : Work} :
    Leads context (.items path (.document collection) items scope) work
      (.documents path collection 0 items scope) work
  | objectItems {path : String} {fields : Fields} {items : List Value} {scope : Scope}
    {work : Work} :
    Leads context (.items path (.object fields) items scope) work
      (.objects path fields 0 items scope) work
  | listItems {path : String} {element : Element} {items : List Value} {scope : Scope}
    {work : Work} :
    Leads context (.items path (.list element) items scope) work
      (.rows path element 0 items scope) work
  | reference {path collection : String} {index : Nat} {item : Value} {rest : List Value}
    {work : Work} :
    Leads context (.references path collection index (item :: rest)) work
      (.reference (itemPath path index) collection item) work
  | otherReferences {path collection : String} {index : Nat} {item built : Value}
    {rest : List Value} {work next : Work}
    (hfirst : Build.buildReference (itemPath path index) collection item context work =
      (.ok built, next)) :
    Leads context (.references path collection index (item :: rest)) work
      (.references path collection (index + 1) rest) next
  | document {path collection : String} {index : Nat} {input : Object} {rest : List Value}
    {scope : Scope} {work : Work} :
    Leads context (.documents path collection index (.object input :: rest) scope) work
      (.embed (itemPath path index) collection input (some scope.owner)) work
  | otherDocuments {path collection : String} {index : Nat} {input : Object} {rest : List Value}
    {scope : Scope} {built : Document} {work next : Work}
    (hfirst : Build.embedDocument (itemPath path index) collection input (some scope.owner) context
      work = (.ok built, next)) :
    Leads context (.documents path collection index (.object input :: rest) scope) work
      (.documents path collection (index + 1) rest scope) next
  | object {path : String} {fields : Fields} {index : Nat} {input : Object} {rest : List Value}
    {scope : Scope} {work : Work} :
    Leads context (.objects path fields index (.object input :: rest) scope) work
      (.fields (itemPath path index) fields input scope.element) work
  | otherObjects {path : String} {fields : Fields} {index : Nat} {input built : Object}
    {rest : List Value} {scope : Scope} {work next : Work}
    (hfirst : Build.buildFields (itemPath path index) fields input scope.element [] context work =
      (.ok built, next)) :
    Leads context (.objects path fields index (.object input :: rest) scope) work
      (.objects path fields (index + 1) rest scope) next
  | row {path : String} {element : Element} {index : Nat} {row rest : List Value} {scope : Scope}
    {work : Work} :
    Leads context (.rows path element index (.array row :: rest) scope) work
      (.items (itemPath path index) element row scope) work
  | otherRows {path : String} {element : Element} {index : Nat} {row rest built : List Value}
    {scope : Scope} {work next : Work}
    (hfirst : Build.buildItems (itemPath path index) element row scope context work =
      (.ok built, next)) :
    Leads context (.rows path element index (.array row :: rest) scope) work
      (.rows path element (index + 1) rest scope) next
  | referenced {path collection : String} {input : Object} {work : Work}
    (hreference : (Value.object input).isReference = false) :
    Leads context (.reference path collection (.object input)) work
      (.embed path collection input none) work

end Part

/-! ### What waits keeps waiting -/

section Pending
variable {context : Context} {work : Work} {path collection : String}

namespace Build

theorem tree_of_ok {tree : Tree} (h : context.registry.tree collection = .ok tree) :
    Build.tree collection context work = (.ok tree, work) := by
  show (context.registry.tree collection, work) = _
  rw [h]

theorem lift_of_ok {α : Type} {result : Except Error α} {a : α} (h : result = .ok a) :
    lift result context work = (.ok a, work) := by
  rw [h]
  rfl

theorem pending_createEmbedded {input : Object} {inject : Option Owner} :
    (insertDocument path collection input inject context work).2.pending <+:
      (createEmbedded path collection input inject context work).2.pending := by
  rw [createEmbedded]
  exact pending_bind fun _ => push_appends.bind fun _ => pure_appends

theorem pending_buildFields {fields : Fields} {input : Object} {scope : Scope}
    {reserved : List String} :
    (buildDeclared path fields input scope context work).2.pending <+:
      (buildFields path fields input scope reserved context work).2.pending := by
  rw [buildFields]
  exact pending_bind fun _ => lift_appends.bind fun _ => pure_appends

/-- Embedding an object that names no id. -/
theorem embedDocument_unnamed {input : Object} {inject : Option Owner}
    (hid : Object.value? input idKey = none ∨ Object.value? input idKey = some .null) :
    embedDocument path collection input inject = createEmbedded path collection input inject := by
  rw [embedDocument]
  rcases hid with hid | hid <;> rw [hid]

theorem named_of_not_unnamed {input : Object}
    (hid : ¬ (Object.value? input idKey = none ∨ Object.value? input idKey = some .null)) :
    ∃ value, Object.value? input idKey = some value ∧ value ≠ .null := by
  obtain ⟨hnone, hnull⟩ := not_or.mp hid
  obtain ⟨value, hvalue⟩ := Option.ne_none_iff_exists'.mp hnone
  exact ⟨value, hvalue, fun heq => hnull (heq ▸ hvalue)⟩

/-- Embedding an object that names an id. -/
theorem embedDocument_named {input : Object} {inject : Option Owner} {value : Value}
    (hvalue : Object.value? input idKey = some value) (hnull : value ≠ .null) :
    embedDocument path collection input inject = (do
      let space ← space collection
      let id ← lift (space.cast (joinPath path idKey) value)
      if space.contains id then
        let stored ← lookup collection id
        if changesNothing input stored then pure stored
        else
          let document ← updateDocument path collection stored input
          push collection document
          pure document
      else createEmbedded path collection input inject) := by
  rw [embedDocument]
  split
  · next hnone => rw [hvalue] at hnone; cases hnone
  · next hnone => rw [hvalue] at hnone; cases hnone; exact absurd rfl hnull
  · next other _ hother => rw [hvalue] at hother; cases hother; rfl

/-- Building a field that the input has. -/
theorem buildField_of_some {name : String} {node : Node} {input : Object} {scope : Scope}
    {value : Value} (hvalue : Object.value? input name = some value) :
    buildField path name node input scope =
      buildValue (joinPath path name) node (some value) scope := by
  rw [buildField]
  split
  · next other hother => rw [hvalue] at hother; cases hother; rfl
  · next hnone => rw [hvalue] at hnone; cases hnone

/-- Merging a key that declares no nested object. -/
theorem mergeFields_value {key : String} {fields : Fields} {target rest : Object} {value : Value}
    {node : Node} {scope : Scope} {reserved : List String}
    (hreserved : reserved.contains key = false) (hnode : fields.node? key = some node)
    (hnested : ∀ inner, node ≠ .nested inner) :
    mergeFields path fields target ((key, value) :: rest) scope reserved = (do
      let built ← buildValue (joinPath path key) node (some value) scope
      mergeFields path fields (built.elim (target.without key) (target.put key)) rest scope
        reserved) := by
  rw [mergeFields, hreserved, hnode]
  simp only [Bool.false_eq_true, if_false]
  refine congrArg _ (funext fun built => ?_)
  cases built with
  | none => rfl
  | some built => rfl

/-- Building a reference that is not null. -/
theorem buildValue_reference {kind : IdKind} {required : Bool} {value : Value} {scope : Scope}
    (hnull : value ≠ .null) :
    buildValue path (.reference collection kind required) (some value) scope =
      some <$> buildReference path collection value := by
  unfold buildValue
  cases value with
  | null => exact absurd rfl hnull
  | _ => rfl

end Build

open Build in
/-- Building a part leaves behind what each of the parts that it leads to leaves behind. -/
theorem Part.Leads.pending {part sub : Part} {next : Work}
    (h : part.Leads context work sub next) :
    (sub.left context next).pending <+: (part.left context work).pending := by
  cases h with simp only [left]
  | create hid =>
    rw [embedDocument_unnamed hid]
    exact pending_createEmbedded
  | createNamed hvalue hnull hspace hcast hunused =>
    rw [embedDocument_named hvalue hnull, bind_of_ok hspace, bind_of_ok (lift_of_ok hcast), hunused]
    exact pending_createEmbedded
  | change hvalue hnull hspace hcast hused hlookup hchanges =>
    rw [embedDocument_named hvalue hnull, bind_of_ok hspace, bind_of_ok (lift_of_ok hcast),
      if_pos hused, bind_of_ok hlookup, hchanges]
    exact pending_bind fun _ => push_appends.bind fun _ => pure_appends
  | inserted htree hid =>
    rw [insertDocument, bind_of_ok (tree_of_ok htree), bind_of_ok hid]
    refine pending_buildFields.trans (pending_bind fun _ => ?_)
    exact read_appends.bind fun _ => checkSize_appends.bind fun _ => pure_appends
  | updated htree hid hsame =>
    rw [updateDocument, bind_of_ok (tree_of_ok htree), hid]
    dsimp only
    rw [bind_of_ok (lift_of_ok hsame)]
    refine pending_bind fun _ => ?_
    exact read_appends.bind fun _ => checkSize_appends.bind fun _ => pure_appends
  | field hvalue =>
    rw [buildDeclared, buildField_of_some hvalue]
    exact pending_bind fun _ => buildDeclared_appends.bind fun _ => pure_appends
  | otherFields hfirst =>
    rw [buildDeclared, bind_of_ok hfirst]
    exact pending_bind fun _ => pure_appends
  | mergeReserved hreserved =>
    rw [mergeFields, if_pos hreserved]
  | mergeNested hreserved hnode =>
    rw [mergeFields, hreserved, hnode]
    exact pending_bind fun _ => mergeFields_appends
  | mergedNested hreserved hnode hnested =>
    rw [mergeFields, hreserved, hnode]
    simp only [Bool.false_eq_true, if_false]
    rw [bind_of_ok hnested]
  | mergeValue hreserved hnode hnested =>
    rw [mergeFields_value hreserved hnode hnested]
    exact pending_bind fun _ => mergeFields_appends
  | mergedValue hreserved hnode hnested hbuilt =>
    rw [mergeFields_value hreserved hnode hnested, bind_of_ok hbuilt]
  | mergedUndeclared hreserved hnode hstrict =>
    rw [mergeFields, hreserved, hnode, hstrict]
    exact List.prefix_rfl
  | referenceValue hnull =>
    rw [buildValue_reference hnull, pending_map]
  | documentValue =>
    rw [buildValue]
    exact pending_bind fun _ => pure_appends
  | listValue =>
    rw [buildValue]
    exact pending_bind fun _ => pure_appends
  | nestedValue =>
    rw [buildValue]
    exact pending_buildFields.trans (pending_bind fun _ => pure_appends)
  | referenceItems =>
    rw [buildItems]
    exact pending_bind fun _ => pure_appends
  | documentItems =>
    rw [buildItems]
    exact pending_bind fun _ => pure_appends
  | objectItems =>
    rw [buildItems]
  | listItems =>
    rw [buildItems]
  | reference =>
    rw [buildReferences]
    exact pending_bind fun _ => buildReferences_appends.bind fun _ => pure_appends
  | otherReferences hfirst =>
    rw [buildReferences, bind_of_ok hfirst]
    exact pending_bind fun _ => pure_appends
  | document =>
    rw [buildDocuments]
    exact pending_bind fun _ => buildDocuments_appends.bind fun _ => pure_appends
  | otherDocuments hfirst =>
    rw [buildDocuments, bind_of_ok hfirst]
    exact pending_bind fun _ => pure_appends
  | object =>
    rw [buildObjects]
    refine pending_buildFields.trans (pending_bind fun _ => ?_)
    exact buildObjects_appends.bind fun _ => pure_appends
  | otherObjects hfirst =>
    rw [buildObjects, bind_of_ok hfirst]
    exact pending_bind fun _ => pure_appends
  | row =>
    rw [buildRows]
    exact pending_bind fun _ => buildRows_appends.bind fun _ => pure_appends
  | otherRows hfirst =>
    rw [buildRows, bind_of_ok hfirst]
    exact pending_bind fun _ => pure_appends
  | referenced hreference =>
    rw [buildReference, hreference]
    refine pending_bind fun document => ?_
    split
    · exact pure_appends
    · exact lift_appends

end Pending

/-! ### Embedding -/

/-- **Building a part embeds a document** of a collection, and `behind` is the work right behind
it. -/
inductive Part.Embeds (context : Context) (collection : String) (document : Document)
    (behind : Work) : Part → Work → Prop
  | here {path : String} {input : Object} {inject : Option Owner} {work : Work}
    (h : Build.embedDocument path collection input inject context work = (.ok document, behind)) :
    Embeds context collection document behind (.embed path collection input inject) work
  | inside {part sub : Part} {work next : Work} (hleads : part.Leads context work sub next)
    (h : Embeds context collection document behind sub next) :
    Embeds context collection document behind part work

section Embedding
variable {context : Context} {collection : String} {document : Document} {work behind : Work}

/-- **What waits behind an embedded document** waits when the part is built, before all else. -/
theorem Part.Embeds.pending {part : Part}
    (h : part.Embeds context collection document behind work) :
    behind.pending <+: (part.left context work).pending := by
  induction h with
  | here h =>
    simp only [left]
    rw [h]
  | inside hleads _ ih => exact ih.trans hleads.pending

/-- The latest version of a document among those that wait and those that are stored. -/
def Work.IsLatest (context : Context) (work : Work) (collection : String) (id : DocId)
    (document : Document) : Prop :=
  work.pendingDocument? collection id = some document ∨
    work.pendingDocument? collection id = none ∧ context.fetch collection id = .ok (some document)

theorem Work.isLatest_push {id : DocId} (hid : document.id? = some id) :
    (work.push collection document).IsLatest context collection id document := by
  left
  simp [pendingDocument?, push, hid]

namespace Build

/-- A step and then another in the same context. -/
theorem ensures_then {α β : Type} {first : Build α} {next : α → Build β} {middle : α → Work → Prop}
    {done : β → Work → Prop} {failed : Error → Work → Prop}
    (hfirst : Ensures (first context) work middle failed)
    (hnext : ∀ a after, middle a after → Ensures (next a context) after done failed) :
    Ensures ((first >>= next) context) work done failed :=
  Ensures.bind hfirst hnext

theorem lookup_latest (id : DocId) :
    Ensures (lookup collection id context) work
      (fun document after => after.IsLatest context collection id document) (fun _ _ => True) := by
  refine ensures_bind.mpr (ensures_get.mpr ?_)
  cases hpending : work.pendingDocument? collection id with
  | some document => exact Or.inl hpending
  | none =>
    refine ensures_bind.mpr (ensures_lift context (fun found hfound => ?_) fun _ _ => trivial)
    cases found with
    | none => exact trivial
    | some document => exact Or.inr ⟨hpending, hfound⟩

/-- A document that is pushed is the latest version. -/
theorem push_latest {step : Build Document} :
    Ensures ((do
      let document ← step
      push collection document
      pure document : Build Document) context) work
      (fun document after => ⟨collection, document⟩ ∈ after.pending ∧
        ∀ id, document.id? = some id → after.IsLatest context collection id document)
      (fun _ _ => True) := by
  refine ensures_then ensures_any fun document after _ => ?_
  refine ⟨List.mem_append_right _ (List.mem_singleton_self _), fun id hid => ?_⟩
  exact Work.isLatest_push hid

/-- **An embedded document** waits, or was found by its id; it is the latest version. -/
theorem embedDocument_latest {path : String} {input : Object} {inject : Option Owner} :
    Ensures (embedDocument path collection input inject context) work
      (fun document after =>
        (⟨collection, document⟩ ∈ after.pending ∧
          ∀ id, document.id? = some id → after.IsLatest context collection id document) ∨
        ∃ id, after.IsLatest context collection id document)
      (fun _ _ => True) := by
  have hcreate : ∀ work, Ensures (createEmbedded path collection input inject context) work
      (fun document after =>
        (⟨collection, document⟩ ∈ after.pending ∧
          ∀ id, document.id? = some id → after.IsLatest context collection id document) ∨
        ∃ id, after.IsLatest context collection id document)
      (fun _ _ => True) := by
    intro work
    rw [createEmbedded]
    exact push_latest.mono (fun _ _ h => Or.inl h) fun _ _ h => h
  by_cases hid : Object.value? input idKey = none ∨ Object.value? input idKey = some .null
  · rw [embedDocument_unnamed hid]
    exact hcreate work
  obtain ⟨value, hvalue, hnull⟩ := named_of_not_unnamed hid
  rw [embedDocument_named hvalue hnull]
  refine ensures_then ensures_any fun space looked _ => ?_
  refine ensures_then ensures_any fun id after _ => ?_
  by_cases hused : space.contains id = true
  · rw [if_pos hused]
    refine ensures_then (lookup_latest id) fun stored found hstored => ?_
    by_cases hsame : changesNothing input stored = true
    · rw [if_pos hsame]
      exact Or.inr ⟨id, hstored⟩
    · rw [if_neg hsame]
      exact push_latest.mono (fun _ _ h => Or.inl h) fun _ _ h => h
  · rw [if_neg hused]
    exact hcreate after

end Build

theorem Part.Embeds.latest {part : Part}
    (h : part.Embeds context collection document behind work) :
    (⟨collection, document⟩ ∈ behind.pending ∧
        ∀ id, document.id? = some id → behind.IsLatest context collection id document) ∨
      ∃ id, behind.IsLatest context collection id document := by
  induction h with
  | here h => exact Build.embedDocument_latest.of_ok h
  | inside _ _ ih => exact ih

end Embedding

end DocumentDb
