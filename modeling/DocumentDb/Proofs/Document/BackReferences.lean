import DocumentDb.Proofs.Document.ArrayRules
import DocumentDb.Proofs.Document.Confinement
import DocumentDb.Proofs.Document.Origins

/-!
# References back to the document around

A document that is created in the place of an embedded one refers back to the document that is being
built around it: absent references to the collection of this document are filled in, in the fields
of the new document and in the nested objects right among them, but not farther in (`Links`). A
document that is created for a reference gets no such references, and neither does one that exists
already.

`Part.Around` follows the builder through the input and keeps the innermost document that is being
built; it is the one that an embedded document refers back to (`embedded_refers_back`). The times
that a collection keeps itself are the exception: a reference that is declared under the key of one
of them holds the time (`dated_pet_forgets`).
-/

namespace DocumentDb

/-! ### What references become -/

/-- Where fields stand in a document. -/
inductive Place where
  /-- Among the fields of the document itself. -/
  | top
  /-- In a nested object among the fields of the document. -/
  | nested
  /-- Farther in, or in the item of a list. -/
  | deep

namespace Place

/-- Where the fields of a nested object stand. -/
def inner : Place → Place
  | top => nested
  | _ => deep

/-- The document that absent references to its collection refer to. -/
def fill (owner? : Option Owner) : Place → Option Owner
  | deep => none
  | _ => owner?

end Place

/-- **What becomes of a reference to a collection**, `fill?` being the document that it refers to if
it is absent. A null is kept, a reference keeps its id, and an object becomes a document that refers
back to nothing. -/
inductive Linked (context : Context) (fill? : Option Owner) (target : String) :
    Option Value → Option Value → Prop
  | filled {owner : Owner} (hfill : fill? = some owner) (htarget : owner.collection = target) :
    Linked context fill? target none (some (reference target owner.id))
  -- The document is of another collection, or there is none.
  | absent (hfill : ∀ owner, fill? = some owner → owner.collection ≠ target) :
    Linked context fill? target none none
  | null : Linked context fill? target (some .null) (some .null)
  | given {value : Value} {id : DocId} (hvalue : value.field? refKey = some id.toValue) :
    Linked context fill? target (some value) (some (reference target id))
  | created {path : String} {input : Object} {work after : Work} {document : Document} {id : DocId}
    (hinput : (Value.object input).isReference = false)
    (hbuilt : Build.embedDocument path target input none context work = (.ok document, after))
    (hid : document.id? = some id) :
    Linked context fill? target (some (.object input)) (some (reference target id))

/-- The node declares no references that can be absent. -/
def Node.fieldless : Node → Bool
  | .reference _ _ _ => false
  | .nested _ => false
  | .list (.object _) => false
  | .list (.list _) => false
  | _ => true

/-- The items of a value; what is no list has none. -/
def itemsOf : Option Value → List Value
  | some (.array items) => items
  | _ => []

/-- **What becomes of the references in a value** that stands at a place in a document that refers
back to an owner. -/
inductive Links (context : Context) (owner? : Option Owner) :
    Place → Node → Option Value → Option Value → Prop
  | reference {place : Place} {target : String} {kind : IdKind} {required : Bool}
    {given stored : Option Value} (h : Linked context (place.fill owner?) target given stored) :
    Links context owner? place (.reference target kind required) given stored
  | nested {place : Place} {fields : Fields} {given stored : Option Value}
    (h : ∀ name node, fields.node? name = some node → Links context owner? place.inner node
      (Object.value? (fieldsOf given) name) (Object.value? (fieldsOf stored) name)) :
    Links context owner? place (.nested fields) given stored
  | items {place : Place} {element : Element} {given stored : Option Value}
    (h : ∀ (index : Nat) value, (itemsOf stored)[index]? = some value →
      Links context owner? .deep element.asNode (itemsOf given)[index]? (some value)) :
    Links context owner? place (.list element) given stored
  | fieldless {place : Place} {node : Node} {given stored : Option Value}
    (h : node.fieldless = true) : Links context owner? place node given stored

section Links
variable {context : Context} {owner? : Option Owner} {place : Place} {given stored : Option Value}

/-- In a list it makes no difference where it stands. -/
theorem Links.anywhere {element : Element} {place' : Place}
    (h : Links context owner? place (.list element) given stored) :
    Links context owner? place' (.list element) given stored := by
  cases h with
  | items h => exact .items h
  | fieldless h => exact .fieldless h

theorem Links.of_noItems {element : Element} (h : itemsOf stored = []) :
    Links context owner? place (.list element) given stored :=
  .items fun index value hvalue => by simp [h] at hvalue

/-- The items of a list become items one by one. -/
theorem Links.of_items {element : Element} {items built : List Value}
    (h : List.Forall₂ (fun item value =>
      Links context owner? .deep element.asNode (some item) (some value)) items built) :
    Links context owner? place (.list element) (some (.array items)) (some (.array built)) := by
  refine .items fun index value hvalue => ?_
  obtain ⟨hbuilt, rfl⟩ := List.getElem?_eq_some_iff.mp hvalue
  have hindex : index < items.length := h.length_eq ▸ hbuilt
  show Links context owner? .deep element.asNode items[index]? _
  rw [List.getElem?_eq_getElem hindex]
  exact h.get hindex hbuilt

end Links

/-- The scope is the one of fields at a place in a document that refers back to an owner. -/
def Scope.At (owner? : Option Owner) (scope : Scope) : Place → Prop
  | .top => scope.inject = owner? ∧ scope.top = true
  | .nested => scope.inject = owner? ∧ scope.top = false
  | .deep => scope.inject = none

namespace Scope.At

variable {owner? : Option Owner} {scope : Scope} {place : Place}

theorem nested (h : scope.At owner? place) : scope.nested.At owner? place.inner := by
  cases place with
  | top => exact ⟨(if_pos h.2).trans h.1, rfl⟩
  | nested =>
    have hnone : scope.nested.inject = none := by rw [Scope.nested, h.2]; rfl
    exact hnone
  | deep =>
    have hnone : scope.inject = none := h
    exact (congrArg (if scope.top then · else none) hnone).trans (ite_self none)

theorem inject (h : scope.At owner? place) : scope.inject = place.fill owner? := by
  cases place with
  | top => exact h.1
  | nested => exact h.1
  | deep => exact h

end Scope.At

theorem Scope.element_at {owner? : Option Owner} (scope : Scope) :
    scope.element.At owner? .deep := rfl

namespace Build

section Yields
variable {context : Context} {collection path name : String} {owner? : Option Owner}
  {place : Place} {node : Node} {scope : Scope}

/-- A step yields at once all that it yields. -/
theorem yields_forall {ι : Sort*} {α : Type} {step : Build α} {done : ι → α → Prop}
    (h : ∀ i, Yields context step (done i)) : Yields context step fun a => ∀ i, done i a :=
  fun work => ensures_of_eq (fun _ _ hstep i => (h i work).of_ok hstep) fun _ _ _ => trivial

/-- A step that succeeds has been taken. -/
theorem ensures_taken {α : Type} {step : Build α} {work : Work} :
    Ensures (step context) work (fun a after => step context work = (.ok a, after))
      fun _ _ => True :=
  ensures_self.mono (fun _ _ h => h) fun _ _ _ => trivial

theorem yields_of_map {α β : Type} {step : Build α} {f : α → β} {done : β → Prop}
    (h : Yields context (step >>= fun a => pure (f a)) done) :
    Yields context step fun a => done (f a) :=
  fun work => ensures_map.mp (by rw [map_eq_pure_bind]; exact h work)

theorem yields_read : Yields context read fun own => own = context := fun _ => rfl

theorem tree_declared : Yields context (Build.tree collection) fun tree =>
    context.registry.tree? collection = some tree :=
  fun _ => ensures_lift context (fun _ htree => Registry.tree_ok_iff.mp htree) fun _ _ => trivial

theorem space_yields :
    Yields context (Build.space collection) fun space => space.collection = collection := by
  intro work
  refine ensures_bind.mpr (ensures_get.mpr ?_)
  cases hspace : work.space? collection with
  | some space => exact (Work.space?_some hspace).2
  | none =>
    refine (tree_declared.bind fun tree htree => yields_any.bind fun own _ =>
      yields_any.bind fun state _ => yields_any.bind fun _ _ => yields_pure ?_) work
    exact Registry.tree?_collection htree

/-- A reference that is checked keeps its id. -/
theorem checkReference_yields {value : Value} :
    Yields context (checkReference path collection value) fun built =>
      ∃ id, value.field? refKey = some id.toValue ∧ built = reference collection id := by
  unfold checkReference
  refine space_yields.bind ?_
  rintro space rfl
  refine yields_lift.mono fun built hbuilt => ?_
  obtain ⟨id, rfl, -, -, hid⟩ := IdSpace.checkReference_ok hbuilt
  exact ⟨id, hid, rfl⟩

theorem buildReference_links {fill? : Option Owner} {value : Value} :
    Yields context (buildReference path collection value) fun built =>
      Linked context fill? collection (some value) (some built) := by
  unfold buildReference
  split_ifs with hshape
  · refine checkReference_yields.mono ?_
    rintro _ ⟨id, hid, rfl⟩
    exact .given hid
  · cases value with
    | object input =>
      intro work
      refine ensures_then ensures_taken fun document after hbuilt => ?_
      cases hid : document.id? with
      | none => exact yields_fail after
      | some id => exact yields_pure (.created (Bool.eq_false_iff.mpr hshape) hbuilt hid) after
    | _ => exact yields_fail

/-- What is filled in is a reference to the document that is referred back to. -/
theorem injected?_eq_some {owner : Owner} (h : injected? node scope = some owner) :
    (∃ kind required, node = .reference owner.collection kind required) ∧
      scope.inject = some owner := by
  unfold injected? at h
  split at h
  · next target kind required other hother =>
    split_ifs at h with htarget
    cases h
    exact ⟨⟨kind, required, htarget ▸ rfl⟩, hother⟩
  · cases h

/-- A reference that is given, or that nothing is filled in for. -/
theorem buildValue_reference_links {target : String} {kind : IdKind} {required : Bool}
    {value? : Option Value} (hscope : scope.At owner? place)
    (hgiven : value? = none → injected? (.reference target kind required) scope = none) :
    Yields context (buildValue path (.reference target kind required) value? scope)
      (Links context owner? place (.reference target kind required) value?) := by
  cases value? with
  | none =>
    simp only [buildValue, absent]
    split_ifs
    · exact yields_fail
    · refine yields_pure (.reference (.absent fun owner howner htarget => ?_))
      have hnone := hgiven rfl
      rw [← hscope.inject] at howner
      simp [injected?, howner, htarget] at hnone
  | some value =>
    by_cases hnull : value = .null
    · subst hnull
      simp only [buildValue, keepNull]
      split_ifs
      · exact yields_fail
      · exact yields_pure (.reference .null)
    · rw [buildValue_reference hnull]
      exact yields_map (buildReference_links.mono fun built h => .reference h)

/-- **A declared field** holds what is built for its value, and an absent reference is filled in. -/
theorem buildField_links {input : Object} (hscope : scope.At owner? place)
    (hvalue : ∀ path value?, (value? = none → injected? node scope = none) →
      Yields context (buildValue path node value? scope) (Links context owner? place node value?)) :
    Yields context (buildField path name node input scope)
      (Links context owner? place node (Object.value? input name)) := by
  cases hinjected : injected? node scope with
  | none =>
    rw [buildField_eq_buildValue hinjected]
    exact hvalue _ _ fun _ => hinjected
  | some owner =>
    cases hinput : Object.value? input name with
    | some value =>
      rw [buildField_of_some hinput]
      exact hvalue _ _ nofun
    | none =>
      obtain ⟨⟨kind, required, rfl⟩, hinject⟩ := injected?_eq_some hinjected
      rw [buildField_injected hinput hinjected]
      refine yields_map (checkReference_yields.mono ?_)
      rintro _ ⟨id, hid, rfl⟩
      obtain rfl : owner.id = id := DocId.toValue_injective (Option.some.inj hid)
      exact .reference (.filled (hscope.inject.symm.trans hinject) rfl)

theorem buildObjects_links {fields : Fields} (hfields : ∀ path input,
      Yields context (buildFields path fields input scope.element []) fun built =>
        Links context owner? .deep (.nested fields) (some (.object input)) (some (.object built)))
    (items : List Value) (index : Nat) :
    Yields context (buildObjects path fields index items scope)
      (List.Forall₂ (fun item value =>
        Links context owner? .deep (.nested fields) (some item) (some value)) items) := by
  induction items generalizing index with
  | nil =>
    rw [buildObjects]
    exact yields_pure .nil
  | cons item rest ih =>
    cases item with
    | object input =>
      rw [buildObjects]
      refine (hfields _ input).bind fun first hfirst => (ih _).bind fun others hothers => ?_
      exact yields_pure (.cons hfirst hothers)
    | _ =>
      rw [buildObjects]
      · exact yields_fail
      all_goals nofun

theorem buildRows_links {element : Element} (hrow : ∀ path row,
      Yields context (buildItems path element row scope) fun built =>
        Links context owner? .deep (.list element) (some (.array row)) (some (.array built)))
    (items : List Value) (index : Nat) :
    Yields context (buildRows path element index items scope)
      (List.Forall₂ (fun item value =>
        Links context owner? .deep (.list element) (some item) (some value)) items) := by
  induction items generalizing index with
  | nil =>
    rw [buildRows]
    exact yields_pure .nil
  | cons item rest ih =>
    cases item with
    | array row =>
      rw [buildRows]
      refine (hrow _ row).bind fun first hfirst => (ih _).bind fun others hothers => ?_
      exact yields_pure (.cons hfirst hothers)
    | _ =>
      rw [buildRows]
      · exact yields_fail
      all_goals nofun

theorem buildList_links {element : Element} {value? : Option Value} (hitems : ∀ items,
      Yields context (buildItems path element items scope) (List.Forall₂ (fun item value =>
        Links context owner? .deep element.asNode (some item) (some value)) items)) :
    Yields context (buildValue path (.list element) value? scope)
      (Links context owner? place (.list element) value?) := by
  unfold buildValue
  split
  · exact yields_pure (.of_noItems rfl)
  · exact yields_pure (.of_noItems rfl)
  · exact (hitems _).bind fun built hbuilt => yields_pure (.of_items hbuilt)
  · exact yields_fail

/-- **What becomes of the references in a value.** -/
theorem buildValue_links (hproper : node.Proper) (hscope : scope.At owner? place) (path : String)
    (value? : Option Value) (hgiven : value? = none → injected? node scope = none) :
    Yields context (buildValue path node value? scope)
      (Links context owner? place node value?) := by
  induction hproper generalizing scope place path value? with
  | scalar => exact yields_any.mono fun _ _ => .fieldless rfl
  | array => exact yields_any.mono fun _ _ => .fieldless rfl
  | document => exact yields_any.mono fun _ _ => .fieldless rfl
  | reference => exact buildValue_reference_links hscope hgiven
  | @list element _ ih =>
    -- Only objects and lists hold fields, and each of their items is built as a value of its own.
    cases element with
    | object fields =>
      refine buildList_links fun items => ?_
      rw [buildItems]
      refine buildObjects_links (fun path input => ?_) items 0
      have hinput := ih scope.element_at path (some (.object input))
        (absurd · (Option.some_ne_none _))
      rw [Element.asNode, buildValue] at hinput
      exact yields_of_map hinput
    | list inner =>
      refine buildList_links fun items => ?_
      rw [buildItems]
      refine buildRows_links (fun path row => ?_) items 0
      have hinput := ih hscope path (some (.array row)) (absurd · (Option.some_ne_none _))
      rw [Element.asNode, buildValue] at hinput
      exact (yields_of_map hinput).mono fun built h => h.anywhere
    | _ => exact yields_any.mono fun _ _ => .fieldless rfl
  | @nested fields hnames hfields ih =>
    refine (yields_logic.buildNested (P := fun input built => ∀ name node,
      fields.node? name = some node → Links context owner? place.inner node
        (Object.value? input name) (Object.value? built name)) fun path input => ?_).mono
        fun built h => .nested h
    refine yields_forall fun name => yields_forall fun node => yields_forall fun hnode => ?_
    refine yields_logic.buildFields_value yields_any hnames hnode ?_
    exact buildField_links hscope.nested (ih _ (Fields.mem_of_node? hnode) hscope.nested)

end Yields

/-! ### Documents -/

section Documents
variable {context : Context} {collection path : String} {tree : Tree}
  (htree : context.registry.tree? collection = some tree) (hproper : tree.Proper)
include htree hproper

/-- **What becomes of the references in a new document.** -/
theorem insertDocument_links (input : Object) (inject : Option Owner) :
    Yields context (insertDocument path collection input inject) fun document =>
      (∀ name node, tree.fields.node? name = some node → name ∉ tree.managedKeys →
        Links context inject .top node (Object.value? input name) (Object.value? document name)) ∧
      ∀ name ∈ tree.managedKeys, name ≠ idKey →
        Object.value? document name = some (.string context.now.text) := by
  have hfields : ∀ scope : Scope, scope.At inject .top → Yields context
      (buildFields path tree.fields input scope tree.managedKeys) fun fields =>
        ∀ name node, tree.fields.node? name = some node → Links context inject .top node
          (Object.value? input name) (Object.value? fields name) := by
    intro scope hscope
    refine yields_forall fun name => yields_forall fun node => yields_forall fun hnode => ?_
    refine yields_logic.buildFields_value yields_any hproper.fields.names hnode ?_
    have hnodeProper := hproper.fields.field _ (Fields.mem_of_node? hnode)
    exact buildField_links hscope (buildValue_links hnodeProper hscope)
  rw [insertDocument]
  refine (tree_yields htree).bind fun found hfound => ?_
  obtain rfl : tree = found := hfound.symm
  refine yields_any.bind fun id _ => (hfields _ ⟨rfl, rfl⟩).bind fun fields hlinks => ?_
  refine yields_read.bind ?_
  rintro _ rfl
  refine yields_any.bind fun _ _ => yields_pure ⟨fun name node hnode hname => ?_, ?_⟩
  · rw [value?_new hname]
    exact hlinks name node hnode
  · exact fun name hname hid => value?_stampNew_time _ hname hid

omit htree hproper in
theorem insertDocument_declared {input : Object} {inject : Option Owner} :
    Yields context (insertDocument path collection input inject) fun _ =>
      ∃ tree, context.registry.tree? collection = some tree := by
  rw [insertDocument]
  exact tree_declared.bind fun tree htree => yields_any.mono fun _ _ => ⟨tree, htree⟩

omit htree hproper in
theorem updateDocument_declared {existing : Document} {patch : Object} :
    Yields context (updateDocument path collection existing patch) fun _ =>
      ∃ tree, context.registry.tree? collection = some tree := by
  rw [updateDocument]
  exact tree_declared.bind fun tree htree => yields_any.mono fun _ _ => ⟨tree, htree⟩

/-- **What becomes of the references in a document that exists already.** -/
theorem updateDocument_links (existing : Document) {patch : Object}
    (hpatch : (Value.object patch).KeysOnce) :
    Yields context (updateDocument path collection existing patch) fun document =>
      ∀ name ∉ tree.managedKeys,
        Patched (fun node value => Links context none .deep node (some value))
          (tree.fields.node? name) (Object.value? patch name) (Object.value? existing name)
          (Object.value? document name) := by
  refine (updateDocument_patched (fun node value => Links context none .deep node (some value))
    htree hproper hpatch fun _ _ node hnode _ path value scope hscope => ?_).mono ?_
  · have hplace : scope.At none .deep := hscope.inject
    exact buildValue_links hnode hplace path (some value) nofun
  · rintro _ ⟨id, merged, now, -, -, rfl, hpatched, -⟩ name hname
    have hkey := hpatched name
    rwa [Object.supplied?, if_neg hname, ← value?_changed hname now merged] at hkey

end Documents

end Build

/-- **How an object comes to stand for a document of a collection**: a new document refers back to
the owner and keeps its times, one that exists already is changed by what the object has, or it
stays as it is. -/
inductive Joined (context : Context) (path collection : String) (input : Object)
    (inject : Option Owner) (work : Work) (document : Document) : Prop
  | created {tree : Tree} {before : Work}
    (hleads : (Part.embed path collection input inject).Leads context work
      (.insert path collection input inject) before)
    (htree : context.registry.tree? collection = some tree)
    (hlinks : ∀ name node, tree.fields.node? name = some node → name ∉ tree.managedKeys →
      Links context inject .top node (Object.value? input name) (Object.value? document name))
    (htimes : ∀ name ∈ tree.managedKeys, name ≠ idKey →
      Object.value? document name = some (.string context.now.text))
  | changed {tree : Tree} {before : Work} {stored : Document}
    (hleads : (Part.embed path collection input inject).Leads context work
      (.update path collection stored input) before)
    (htree : context.registry.tree? collection = some tree)
    (hpatched : ∀ name ∉ tree.managedKeys,
      Patched (fun node value => Links context none .deep node (some value))
        (tree.fields.node? name) (Object.value? input name) (Object.value? stored name)
        (Object.value? document name))
  | kept {space : IdSpace} {id : DocId} {looked found : Work}
    (hid : Object.value? input idKey = some id.toValue)
    (hspace : Build.space collection context work = (.ok space, looked))
    (hused : space.contains id = true)
    (hlookup : Build.lookup collection id context looked = (.ok document, found))
    (hsame : Build.changesNothing input document = true)

namespace Build

section Joining
variable {context : Context} {path collection : String} {input : Object} {inject : Option Owner}
  {work : Work} (hregistry : context.registry.Proper) (hinput : (Value.object input).KeysOnce)
include hregistry

theorem createEmbedded_joined {before : Work}
    (hleads : (Part.embed path collection input inject).Leads context work
      (.insert path collection input inject) before) :
    Ensures (createEmbedded path collection input inject context) before
      (fun document _ => Joined context path collection input inject work document)
      fun _ _ => True := by
  rw [createEmbedded]
  refine ensures_then ensures_taken fun document after hbuilt => ?_
  refine ensures_then ensures_any fun _ _ _ => ?_
  obtain ⟨tree, htree⟩ := (insertDocument_declared before).of_ok hbuilt
  have hproper := hregistry.tree? htree
  obtain ⟨hlinks, htimes⟩ := (insertDocument_links htree hproper input inject before).of_ok hbuilt
  exact .created hleads htree hlinks htimes

include hinput

/-- **How an embedded document comes about.** -/
theorem embedDocument_joined :
    Ensures (embedDocument path collection input inject context) work
      (fun document _ => Joined context path collection input inject work document)
      fun _ _ => True := by
  by_cases hid : Object.value? input idKey = none ∨ Object.value? input idKey = some .null
  · rw [embedDocument_unnamed hid]
    exact createEmbedded_joined hregistry (.create hid)
  obtain ⟨value, hvalue, hnull⟩ := named_of_not_unnamed hid
  rw [embedDocument_named hvalue hnull]
  refine ensures_then ensures_taken fun space looked hspace => ?_
  refine ensures_bind.mpr (ensures_lift context (fun id hcast => ?_) fun _ _ => trivial)
  by_cases hused : space.contains id = true
  · simp only [hused, if_true]
    refine ensures_then ensures_taken fun stored found hlookup => ?_
    by_cases hsame : changesNothing input stored = true
    · rw [if_pos hsame]
      have hid : value = id.toValue := (IdSpace.cast_ok hcast).1
      exact .kept (hid ▸ hvalue) hspace hused hlookup hsame
    · rw [if_neg hsame]
      refine ensures_then ensures_taken fun document after hbuilt => ?_
      refine ensures_then ensures_any fun _ _ _ => ?_
      obtain ⟨tree, htree⟩ := (updateDocument_declared found).of_ok hbuilt
      have hproper := hregistry.tree? htree
      have hpatched := (updateDocument_links htree hproper stored hinput found).of_ok hbuilt
      have hchanges : changesNothing input stored = false := Bool.eq_false_iff.mpr hsame
      exact .changed (.change hvalue hnull hspace hcast hused hlookup hchanges) htree hpatched
  · simp only [hused, Bool.false_eq_true, if_false]
    have hunused : space.contains id = false := Bool.eq_false_iff.mpr hused
    exact createEmbedded_joined hregistry (.createNamed hvalue hnull hspace hcast hunused)

end Joining

end Build

/-! ### The document around -/

namespace Part

/-- A part builds a document. -/
inductive Opens (context : Context) : Part → Work → Owner → Prop
  | insert {path collection : String} {input : Object} {inject : Option Owner} {work taken : Work}
    {id : DocId} (hid : Build.newId path collection input context work = (.ok id, taken)) :
    Opens context (.insert path collection input inject) work ⟨collection, id⟩
  | update {path collection : String} {existing : Document} {patch : Object} {work : Work}
    {id : DocId} (hid : existing.id? = some id) :
    Opens context (.update path collection existing patch) work ⟨collection, id⟩

/-- What creating or changing a document begins with. -/
inductive Begins : Part → Prop
  | create {collection : String} {input : Object} : Begins (.insert "" collection input none)
  | change {collection : String} {existing : Document} {patch : Object} :
    Begins (.update "" collection existing patch)

/-- **The innermost document that is being built around a part**, on the way that the builder takes
to it from where it begins. -/
inductive Around (context : Context) (root : Part) (start : Work) :
    Option Owner → Part → Work → Prop
  | root : Around context root start none root start
  | opened {around : Option Owner} {part sub : Part} {work next : Work} {owner : Owner}
    (h : Around context root start around part work) (hopens : part.Opens context work owner)
    (hleads : part.Leads context work sub next) :
    Around context root start (some owner) sub next
  | inside {around : Option Owner} {part sub : Part} {work next : Work}
    (h : Around context root start around part work)
    (hopens : ∀ owner, ¬ part.Opens context work owner)
    (hleads : part.Leads context work sub next) : Around context root start around sub next

/-- The input that a part is built from. -/
def content : Part → Value
  | .insert _ _ input _ | .update _ _ _ input | .fields _ _ input _ | .merge _ _ _ input _ _
  | .embed _ _ input _ => .object input
  | .value _ _ raw _ | .reference _ _ raw => raw
  | .items _ _ list _ | .references _ _ _ list | .documents _ _ _ list _ | .objects _ _ _ list _
  | .rows _ _ _ list _ => .array list

/-- The document that a part is in. -/
def owner? : Part → Option Owner
  | .fields _ _ _ scope | .merge _ _ _ _ scope _ | .value _ _ _ scope | .items _ _ _ scope
  | .documents _ _ _ _ scope | .objects _ _ _ _ scope | .rows _ _ _ _ scope => some scope.owner
  | _ => none

/-- Documents that come about for a part are copied into the document that it is in; for other parts
there is only a reference to them. -/
def hosts : Part → Bool
  | .value _ _ _ _ | .documents _ _ _ _ _ => true
  | _ => false

section Leads
variable {context : Context} {part sub : Part} {work next : Work}

theorem Leads.keysOnce (h : part.Leads context work sub next) (hpart : part.content.KeysOnce) :
    sub.content.KeysOnce := by
  cases h with
  | create | createNamed | change | inserted | updated | otherFields => exact hpart
  | field hvalue => exact hpart.field _ (Object.mem_of_value? hvalue)
  | mergeReserved | mergedNested | mergedValue | mergedUndeclared => exact hpart.otherFields
  | mergeNested | mergeValue => exact hpart.field _ List.mem_cons_self
  | referenceValue | documentValue | listValue | nestedValue | referenceItems | documentItems
  | objectItems | listItems | referenced => exact hpart
  | reference | document | object | row => exact hpart.item _ List.mem_cons_self
  | otherReferences | otherDocuments | otherObjects | otherRows => exact hpart.otherItems

/-- A part is in the document that the part before it builds, or else in the same one as this. -/
theorem Leads.owner? {owner : Owner} (h : part.Leads context work sub next)
    (howner : sub.owner? = some owner) :
    part.Opens context work owner ∨
      (∀ other, ¬ part.Opens context work other) ∧ part.owner? = some owner := by
  cases h with
  | inserted htree hid =>
    cases howner
    exact .inl (.insert hid)
  | updated htree hid hsame =>
    cases howner
    exact .inl (.update hid)
  | _ => first | exact .inr ⟨nofun, howner⟩ | cases howner

/-- Only what is copied into the document around refers back to it. -/
theorem Leads.inject {path collection : String} {input : Object} {inject : Option Owner}
    (h : part.Leads context work (.embed path collection input inject) next) :
    (part.hosts = true → ∃ owner, part.owner? = some owner ∧ inject = some owner) ∧
      (part.hosts = false → inject = none) := by
  cases h with
  | documentValue => exact ⟨fun _ => ⟨_, rfl, rfl⟩, nofun⟩
  | document => exact ⟨fun _ => ⟨_, rfl, rfl⟩, nofun⟩
  | referenced => exact ⟨nofun, fun _ => rfl⟩

end Leads

section Around
variable {context : Context} {root part : Part} {start work : Work} {around : Option Owner}

theorem Opens.unique {owner other : Owner} (h : part.Opens context work owner)
    (h' : part.Opens context work other) : owner = other := by
  cases h with
  | insert hid =>
    cases h' with
    | insert hother =>
      rw [hid] at hother
      cases hother
      rfl
  | update hid =>
    cases h' with
    | update hother =>
      rw [hid] at hother
      cases hother
      rfl

theorem Around.keysOnce (h : Around context root start around part work)
    (hroot : root.content.KeysOnce) : part.content.KeysOnce := by
  induction h with
  | root => exact hroot
  | opened _ _ hleads ih => exact hleads.keysOnce ih
  | inside _ _ hleads ih => exact hleads.keysOnce ih

/-- **The document that a part is in** is the innermost one that is being built around it. -/
theorem Around.owner? (h : Around context root start around part work) (hroot : root.Begins) :
    ∀ owner, part.owner? = some owner → around = some owner := by
  induction h with
  | root =>
    intro owner howner
    cases hroot <;> cases howner
  | opened _ hopens hleads _ =>
    intro owner howner
    rcases hleads.owner? howner with hother | ⟨hnone, -⟩
    · rw [hopens.unique hother]
    · exact absurd hopens (hnone _)
  | inside _ hopens hleads ih =>
    intro owner howner
    rcases hleads.owner? howner with hother | ⟨-, hsame⟩
    · exact absurd hother (hopens owner)
    · exact ih owner hsame

theorem Around.step {sub : Part} {next : Work} (h : Around context root start around part work)
    (hleads : part.Leads context work sub next) :
    ∃ other, Around context root start other sub next := by
  by_cases hopens : ∃ owner, part.Opens context work owner
  · obtain ⟨owner, hopens⟩ := hopens
    exact ⟨some owner, h.opened hopens hleads⟩
  · exact ⟨around, h.inside (fun owner howner => hopens ⟨owner, howner⟩) hleads⟩

/-- The builder comes to embed a document on its way from where it begins. -/
def Reaches (context : Context) (root : Part) (start : Work) (collection : String)
    (document : Document) : Prop :=
  ∃ around part work path input inject next after, Around context root start around part work ∧
    part.Leads context work (.embed path collection input inject) next ∧
    Build.embedDocument path collection input inject context next = (.ok document, after)

theorem Embeds.reached {sub : Part} {next behind : Work} {collection : String}
    {document : Document} (h : sub.Embeds context collection document behind next)
    (haround : Around context root start around part work)
    (hleads : part.Leads context work sub next) :
    Reaches context root start collection document := by
  induction h generalizing part work around with
  | here hbuilt => exact ⟨_, _, _, _, _, _, _, _, haround, hleads, hbuilt⟩
  | inside hinside _ ih =>
    obtain ⟨other, hother⟩ := haround.step hleads
    exact ih hother hinside

/-- **All that comes to wait** is embedded on the way. -/
theorem Begins.reaches (hroot : root.Begins) {write : PendingWrite}
    (hwrite : write ∈ (root.left context start).pending) :
    write ∈ start.pending ∨ root.Reaches context start write.collection write.document := by
  refine (accounts context root start write hwrite).imp_right fun ⟨behind, hembeds⟩ => ?_
  cases hembeds with
  | here => cases hroot
  | inside hleads hinside => exact hinside.reached .root hleads

end Around

end Part

/-- **An embedded document refers back to the document around it**: where the builder creates a
document to be copied into another one, which is the innermost that is being built there, absent
references to the collection of that one are filled in among the fields of the new document and in
the nested objects right among them, and nowhere else. Nothing is filled in for a reference, nor in
a document that exists already, and what is given is never replaced. All documents that come to wait
are embedded in this way. -/
theorem embedded_refers_back {context : Context} (hregistry : context.registry.Compiled)
    {root : Part} (hroot : root.Begins) (hinput : root.content.KeysOnce) (start : Work) :
    (∀ around part work path collection input inject next,
      Part.Around context root start around part work →
      part.Leads context work (.embed path collection input inject) next →
        (part.hosts = true → ∃ owner, around = some owner ∧ inject = some owner) ∧
        (part.hosts = false → inject = none) ∧
        ∀ document after,
          Build.embedDocument path collection input inject context next = (.ok document, after) →
            Joined context path collection input inject next document) ∧
    ∀ write ∈ (root.left context start).pending,
      write ∈ start.pending ∨ root.Reaches context start write.collection write.document := by
  refine ⟨fun around part work path collection input inject next haround hleads => ?_,
    fun write => hroot.reaches⟩
  obtain ⟨hhosts, hnone⟩ := hleads.inject
  refine ⟨fun hpart => ?_, hnone, fun document after hbuilt => ?_⟩
  · obtain ⟨owner, howner, hinject⟩ := hhosts hpart
    exact ⟨owner, haround.owner? hroot owner howner, hinject⟩
  · have hembed : (Value.object input).KeysOnce := hleads.keysOnce (haround.keysOnce hinput)
    exact (Build.embedDocument_joined hregistry.proper hembed).of_ok hbuilt

/-! ### Pets -/

/-- A reference to a person. -/
def personDeclaration : Value := .object [("$ref", .string "people")]

/-- A schema by which people have pets, and pets have an owner and a home with a keeper. -/
def petDefinitions : List Definition :=
  [⟨"people", {}, [("pet", .object [("schema", .string "pets")])]⟩,
    ⟨"pets", { createdAt := true }, [("owner", personDeclaration),
      ("home", .object [("keeper", personDeclaration),
        ("box", .object [("maker", personDeclaration)])]),
      ("created_at", personDeclaration)]⟩]

/-- A reference to a person that is not required. -/
def personNode : Node := .reference "people" .incr false

/-- The compiled schema of pets. -/
def petTree : Tree where
  collection := "pets"
  id := .standard
  fields := [("owner", personNode),
    ("home", .nested [("keeper", personNode), ("box", .nested [("maker", personNode)])]),
    ("created_at", personNode)]
  settings := { createdAt := true }

/-- The compiled schema of people. -/
def petOwnerTree : Tree where
  collection := "people"
  id := .standard
  fields := [("pet", .document "pets" false)]
  settings := {}

/-- The compiled schemas of people and of pets. -/
def petRegistry : Registry := { shardMax := 1000, trees := [petOwnerTree, petTree] }

theorem pets_compiled : petRegistry.Compiled := by
  refine ⟨1000, petDefinitions, rfl, fun definition hin => ?_⟩
  simp only [petDefinitions, List.mem_cons, List.not_mem_nil, or_false] at hin
  rcases hin with rfl | rfl
  · simp [Value.keysOnce_object_iff, Value.KeysOnce.string, Object.keys]
  · simp [personDeclaration, Value.keysOnce_object_iff, Value.KeysOnce.string, Object.keys]

/-- What is looked at while pets are built in an empty store. -/
def petContext : Context where
  registry := petRegistry
  now := ⟨0, 0⟩
  source := IdSource.ofBytes .empty
  state := MemoryStore.backend.state { shardMax := 1000 }
  fetch := MemoryStore.backend.fetch { shardMax := 1000 }

/-- The work when the first person has got an id. -/
def petWork : Work := (Build.newId "" "people" [("pet", .object [])] petContext {}).2

/-- The new pet of the first person. -/
def newPet : Document :=
  [("id", .ofNat 1), ("owner", reference "people" (.number 1)),
    ("home", .object [("keeper", reference "people" (.number 1))]),
    ("created_at", .string "1970-01-01T00:00:00.000Z")]

set_option maxRecDepth 2000 in
/-- A new pet refers back to its owner, twice. -/
theorem new_pet_refers_back :
    Build.newId "" "people" [("pet", .object [])] petContext {} = (.ok (.number 1), petWork) ∧
    (Build.embedDocument "pet" "pets" [] (some ⟨"people", .number 1⟩) petContext petWork).1 =
      .ok newPet ∧
    Joined petContext "pet" "pets" [] (some ⟨"people", .number 1⟩) petWork newPet := by
  have hid : Build.newId "" "people" [("pet", .object [])] petContext {} =
      (.ok (.number 1), petWork) := Prod.ext (by cbv) rfl
  have hbuilt : (Build.embedDocument "pet" "pets" [] (some ⟨"people", .number 1⟩) petContext
      petWork).1 = .ok newPet := by cbv
  refine ⟨hid, hbuilt, ?_⟩
  have hinput : (Value.object [("pet", .object [])]).KeysOnce := by
    simp [Value.keysOnce_object_iff, Object.keys]
  have hbegun : Part.Around petContext (.insert "" "people" [("pet", .object [])] none) {} none
      (.insert "" "people" [("pet", .object [])] none) {} := .root
  have haround := (hbegun.opened (.insert hid) (.inserted rfl hid)).inside
    (fun _ hopens => by cases hopens) (.field rfl)
  obtain ⟨hembeds, -⟩ := @embedded_refers_back petContext pets_compiled _ .create hinput {}
  obtain ⟨-, -, hjoined⟩ := hembeds _ _ _ _ _ _ _ _ haround .documentValue
  exact hjoined newPet _ (Prod.ext hbuilt rfl)

set_option maxRecDepth 2000 in
/-- **A time takes the place of a reference**: a new pet is given the time of its creation where the
schema declares a reference to a person. -/
theorem dated_pet_forgets :
    petTree.fields.node? createdKey = some personNode ∧
    (Build.create "people" (.object [("pet", .object [])]) petContext {}).1 =
      .ok [("id", .ofNat 1), ("pet", .object newPet)] ∧
    Object.value? newPet createdKey ≠ some (reference "people" (.number 1)) := by
  refine ⟨rfl, by cbv, nofun⟩

end DocumentDb
