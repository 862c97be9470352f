import DocumentDb.Proofs.Document.ReferenceLists

/-!
# Lists in which every item has an id of its own

A list of references or of documents is collapsed when it is built, and all ids are known by then:
embedded documents have got theirs. So whatever is built is tidy (`Tidy`): in such a list every item
has an id and no two have the same one, in nested objects, in rows and in embedded documents too.

An embedded document is a copy of one that was built or stored, so it is tidy if documents are. To
go round in no circle, documents are tidy *down to a depth* of embedded documents (`TidyTo`), and
each depth is accepted with the help of the one before (`tidyTo_vetting`).
-/

namespace DocumentDb

/-! ### Tidy values -/

/-- How the items of a list of references or of documents are told apart. -/
def Element.idOf? : Element → Option (Value → Option DocId)
  | reference _ _ => some Value.referenceId?
  | document _ => some DocId.ofIdOrObject?
  | _ => none

/-- **Every item has an id of its own.** -/
def OwnIds (idOf : Value → Option DocId) (items : List Value) : Prop :=
  ∃ ids : List DocId, ids.Nodup ∧ items.map idOf = ids.map some

/-- **A value at a node is tidy**: in its lists of references and of documents every item has an id
of its own. Embedded documents are as `inner` says. -/
inductive Tidy (inner : String → Document → Prop) : Node → Value → Prop
  | scalar {kind : ScalarKind} {rules : Rules} {value : Value} :
    Tidy inner (.scalar kind rules) value
  | array {rules : Rules} {value : Value} : Tidy inner (.array rules) value
  | reference {collection : String} {kind : IdKind} {required : Bool} {value : Value} :
    Tidy inner (.reference collection kind required) value
  | null {node : Node} : Tidy inner node .null
  | text {node : Node} {s : String} : Tidy inner node (.string s)
  | document {collection : String} {required : Bool} {document : Document}
    (h : inner collection document) : Tidy inner (.document collection required) (.object document)
  | nested {fields : Fields} {object : Object}
    (h : ∀ name node, fields.node? name = some node →
      ∀ value, Object.value? object name = some value → Tidy inner node value) :
    Tidy inner (.nested fields) (.object object)
  | list {element : Element} {items : List Value}
    (hitems : ∀ item ∈ items, Tidy inner element.asNode item)
    (hids : ∀ idOf, element.idOf? = some idOf → OwnIds idOf items) :
    Tidy inner (.list element) (.array items)

/-- The values of declared fields are tidy. -/
def TidyFields (inner : String → Document → Prop) (fields : Fields) (object : Object) : Prop :=
  ∀ name node, fields.node? name = some node →
    ∀ value, Object.value? object name = some value → Tidy inner node value

/-- **A document is tidy down to a depth** of embedded documents. -/
def Object.TidyTo (registry : Registry) : Nat → String → Document → Prop
  | 0, collection, document => document.Identifies registry collection
  | depth + 1, collection, document => document.Identifies registry collection ∧
    ∀ tree, registry.tree? collection = some tree →
      TidyFields (TidyTo registry depth) tree.fields document

section Tidy
variable {inner inner' : String → Document → Prop} {idOf : Value → Option DocId}
  {items : List Value}

theorem Tidy.mono {node : Node} {value : Value} (h : Tidy inner node value)
    (hinner : ∀ collection document, inner collection document → inner' collection document) :
    Tidy inner' node value := by
  induction h with
  | scalar => exact .scalar
  | array => exact .array
  | reference => exact .reference
  | null => exact .null
  | text => exact .text
  | document h => exact .document (hinner _ _ h)
  | nested _ ih => exact .nested ih
  | list _ hids ih => exact .list ih hids

theorem Tidy.fields {fields : Fields} {object : Object}
    (h : Tidy inner (.nested fields) (.object object)) : TidyFields inner fields object := by
  cases h with
  | nested h => exact h

theorem ownIds_nil : OwnIds idOf [] := ⟨[], List.nodup_nil, rfl⟩

/-- Items with an id have ids of their own when they are collapsed. -/
theorem ownIds_collapse (h : ∀ item ∈ items, idOf item ≠ none) :
    OwnIds idOf (collapse idOf items) := by
  have hmap : ∀ kept : List Value, (∀ item ∈ kept, idOf item ≠ none) →
      kept.map idOf = (kept.filterMap idOf).map some := by
    intro kept hkept
    induction kept with
    | nil => rfl
    | cons item rest ih =>
      obtain ⟨hitem, hrest⟩ := List.forall_mem_cons.mp hkept
      obtain ⟨id, hid⟩ := Option.ne_none_iff_exists'.mp hitem
      rw [List.map_cons, List.filterMap_cons_some hid, List.map_cons, hid, ih hrest]
  exact ⟨_, nodup_collapse items, hmap _ fun item hin => h item (mem_collapse hin)⟩

end Tidy

namespace Object

variable {registry : Registry} {depth : Nat} {collection : String} {document : Document}

theorem TidyTo.identified (h : TidyTo registry depth collection document) :
    document.Identifies registry collection := by
  cases depth with
  | zero => exact h
  | succ => exact h.1

/-- What is tidy down to a depth is so down to smaller ones. -/
theorem TidyTo.of_succ (h : TidyTo registry (depth + 1) collection document) :
    TidyTo registry depth collection document := by
  induction depth generalizing collection document with
  | zero => exact h.1
  | succ depth ih =>
    refine ⟨h.1, fun tree htree name node hnode value hvalue => ?_⟩
    exact (h.2 tree htree name node hnode value hvalue).mono fun _ _ => ih

end Object

namespace Build

/-! ### What is built is tidy -/

section Lists
variable {context : Context} {shardMax : Nat} {accepted : String → Document → Prop}
  {path target : String} {items : List Value} {scope : Scope} {index : Nat}

/-- A step that vets yields at once all that it yields. -/
theorem vets_forall {ι : Sort*} {α : Type} {step : Build α} {done : ι → α → Prop}
    (hany : Vets context shardMax accepted step fun _ => True)
    (h : ∀ i, Vets context shardMax accepted step (done i)) :
    Vets context shardMax accepted step fun a => ∀ i, done i a := fun work hwork =>
  ((hany work hwork).and ensures_self).mono
    (fun _ _ hstep => ⟨hstep.1.1, fun i => ((h i work hwork).of_ok hstep.2).2⟩) fun _ _ h => h.1

/-- What two facts say of a step. -/
theorem Vets.and {α : Type} {step : Build α} {done done' : α → Prop}
    (h : Vets context shardMax accepted step done)
    (h' : Vets context shardMax accepted step done') :
    Vets context shardMax accepted step fun a => done a ∧ done' a := fun work hwork =>
  ((h work hwork).and (h' work hwork)).mono (fun _ _ hboth => ⟨hboth.1.1, hboth.1.2, hboth.2.2⟩)
    fun _ _ hboth => hboth.1

theorem buildObjects_vets {fields : Fields} {P : Object → Prop}
    (hfields : ∀ path input scope,
      Vets context shardMax accepted (buildFields path fields input scope []) P) :
    Vets context shardMax accepted (buildObjects path fields index items scope) fun built =>
      ∀ item ∈ built, ∃ object, item = .object object ∧ P object := by
  induction items generalizing index with
  | nil =>
    rw [buildObjects]
    exact vets_pure nofun
  | cons item rest ih =>
    cases item with
    | object input =>
      rw [buildObjects]
      refine (hfields _ _ _).bind fun first hfirst => ih.bind fun others hothers => vets_pure ?_
      exact List.forall_mem_cons.mpr ⟨⟨first, rfl, hfirst⟩, hothers⟩
    | _ =>
      rw [buildObjects]
      exact vets_fail
      rintro _ ⟨⟩

theorem buildRows_vets {element : Element} {P : List Value → Prop}
    (hrow : ∀ path row scope,
      Vets context shardMax accepted (buildItems path element row scope) P) :
    Vets context shardMax accepted (buildRows path element index items scope) fun built =>
      ∀ item ∈ built, ∃ row, item = .array row ∧ P row := by
  induction items generalizing index with
  | nil =>
    rw [buildRows]
    exact vets_pure nofun
  | cons item rest ih =>
    cases item with
    | array row =>
      rw [buildRows]
      refine (hrow _ _ _).bind fun first hfirst => ih.bind fun others hothers => vets_pure ?_
      exact List.forall_mem_cons.mpr ⟨⟨first, rfl, hfirst⟩, hothers⟩
    | _ =>
      rw [buildRows]
      exact vets_fail
      rintro _ ⟨⟩

variable (hvetting : Vetting context shardMax accepted)
include hvetting

theorem buildDocuments_vets :
    Vets context shardMax accepted (buildDocuments path target index items scope) fun built =>
      ∀ item ∈ built, ∃ document, item = .object document ∧ accepted target document := by
  induction items generalizing index with
  | nil =>
    rw [buildDocuments]
    exact vets_pure nofun
  | cons item rest ih =>
    cases item with
    | object input =>
      rw [buildDocuments]
      refine (embedDocument_vets hvetting (fun _ _ _ _ _ => buildFields_vets hvetting)
        fun _ _ _ _ _ _ => mergeFields_vets hvetting).bind fun first hfirst => ?_
      refine ih.bind fun others hothers => vets_pure ?_
      exact List.forall_mem_cons.mpr ⟨⟨first, rfl, hfirst⟩, hothers⟩
    | _ =>
      rw [buildDocuments]
      exact vets_fail
      rintro _ ⟨⟩

/-- **Lists of references and of documents are collapsed** when all ids are known. -/
theorem buildItems_ownIds (hidentified : ∀ collection document, accepted collection document →
      Object.Identifies context.registry collection document)
    (hregistry : context.registry.Proper) {element : Element} {idOf : Value → Option DocId}
    (hid : element.idOf? = some idOf) :
    Vets context shardMax accepted (buildItems path element items scope) (OwnIds idOf) := by
  cases element with
  | reference collection kind =>
    cases hid
    rw [buildItems]
    refine (buildReferences_refers hvetting (hidentified collection)).bind fun built hbuilt => ?_
    refine vets_pure (ownIds_collapse fun item hin => ?_)
    obtain ⟨tree, id, htree, hadmits, rfl⟩ := hbuilt item hin
    have hvalid : (reference collection id).referenceId? = some id :=
      hadmits.valid (hregistry.tree? htree).id
    simp [hvalid]
  | document collection =>
    cases hid
    rw [buildItems]
    refine (buildDocuments_vets hvetting).bind fun built hbuilt => ?_
    refine vets_pure (ownIds_collapse fun item hin => ?_)
    obtain ⟨document, rfl, hdocument⟩ := hbuilt item hin
    obtain ⟨-, id, -, hown, -⟩ := hidentified collection document hdocument
    have hvalid : DocId.ofIdOrObject? (.object document) = some id := hown
    simp [hvalid]
  | any | scalar | object | list => cases hid

/-- **What is built at a node is tidy**, as the value of a field and as items of a list. -/
structure BuildsTidy (context : Context) (shardMax : Nat) (accepted : String → Document → Prop)
    (node : Node) : Prop where
  value : ∀ path value? scope, Vets context shardMax accepted (buildValue path node value? scope)
    fun built => ∀ value, built = some value → Tidy accepted node value
  items : ∀ element, element.asNode = node → ∀ path items scope,
    Vets context shardMax accepted (buildItems path element items scope) fun built =>
      ∀ item ∈ built, Tidy accepted node item

theorem buildItems_vets {element : Element} :
    Vets context shardMax accepted (buildItems path element items scope) fun _ => True :=
  Composed.vets hvetting (buildItems_composed path element items scope fun _ _ _ _ _ => trivial)

/-- Fields are tidy if what is built at the node of each of them is. -/
theorem buildFields_tidy {fields : Fields} {input : Object} {reserved : List String}
    (hnames : fields.names.Nodup) (hnodes : ∀ name node, fields.node? name = some node →
      BuildsTidy context shardMax accepted node) :
    Vets context shardMax accepted (buildFields path fields input scope reserved)
      (TidyFields accepted fields) := by
  have hany : Vets context shardMax accepted (buildFields path fields input scope reserved)
      fun _ => True := buildFields_vets hvetting
  refine vets_forall hany fun name => vets_forall hany fun node => vets_forall hany fun hnode => ?_
  refine vets_logic.buildFields_value (buildField_vets hvetting) hnames hnode
    (P := fun built => ∀ value, built = some value → Tidy accepted node value) ?_
  cases node with
  | reference => exact (buildField_vets hvetting).mono fun _ _ _ _ => .reference
  | scalar | array | document | list | nested =>
    rw [buildField_eq_buildValue rfl]
    exact (hnodes name _ hnode).value _ _ _

/-- An embedded document is tidy if it is accepted. -/
theorem buildsTidy_document {required : Bool} :
    BuildsTidy context shardMax accepted (.document target required) where
  value path value? scope := by
    unfold buildValue
    split
    · unfold absent
      split_ifs
      · exact vets_fail
      · exact vets_pure fun value hvalue => by cases hvalue
    · unfold keepNull
      split_ifs
      · exact vets_fail
      · exact vets_pure fun value hvalue => Option.some.inj hvalue ▸ .null
    · refine (embedDocument_vets hvetting (fun _ _ _ _ _ => buildFields_vets hvetting)
        fun _ _ _ _ _ _ => mergeFields_vets hvetting).bind fun document hdocument => ?_
      exact vets_pure fun value hvalue => Option.some.inj hvalue ▸ .document hdocument
    · exact vets_fail
  items element helement path items scope := by
    cases element with
    | document =>
      cases helement
      rw [buildItems]
      refine (buildDocuments_vets hvetting).bind fun built hbuilt => vets_pure fun item hin => ?_
      obtain ⟨document, rfl, hdocument⟩ := hbuilt item (mem_collapse hin)
      exact .document hdocument
    | any | scalar | reference | object | list => cases helement

/-- A nested object is tidy if its fields are. -/
theorem buildsTidy_nested {fields : Fields} (hnames : fields.names.Nodup)
    (hnodes : ∀ name node, fields.node? name = some node →
      BuildsTidy context shardMax accepted node) :
    BuildsTidy context shardMax accepted (.nested fields) := by
  have hfields : ∀ path input scope, Vets context shardMax accepted
      (buildFields path fields input scope []) (TidyFields accepted fields) :=
    fun _ _ _ => buildFields_tidy hvetting hnames hnodes
  have hempty : ∀ path scope, Vets context shardMax accepted
      (do
        let built ← buildFields path fields [] scope []
        pure (if built.isEmpty then none else some (.object built)))
      fun built => ∀ value, built = some value → Tidy accepted (.nested fields) value := by
    refine fun path scope => (hfields _ _ _).bind fun built hbuilt => vets_pure ?_
    split_ifs
    · exact nofun
    · exact fun value hvalue => Option.some.inj hvalue ▸ .nested hbuilt
  constructor
  · intro path value? scope
    unfold buildValue
    split
    · exact hempty _ _
    · exact hempty _ _
    · refine (hfields _ _ _).bind fun built hbuilt => ?_
      exact vets_pure fun value hvalue => Option.some.inj hvalue ▸ .nested hbuilt
    · exact vets_fail
  · intro element helement path items scope
    cases element with
    | object =>
      cases helement
      rw [buildItems]
      refine (buildObjects_vets hfields).mono fun built hbuilt item hin => ?_
      obtain ⟨object, rfl, hobject⟩ := hbuilt item hin
      exact .nested hobject
    | any | scalar | reference | document | list => cases helement

variable (hidentified : ∀ collection document, accepted collection document →
    Object.Identifies context.registry collection document)
  (hregistry : context.registry.Proper)
include hidentified hregistry

/-- A list is tidy if its items are. -/
theorem buildsTidy_list {element : Element}
    (helement : BuildsTidy context shardMax accepted element.asNode) :
    BuildsTidy context shardMax accepted (.list element) := by
  have hlist : ∀ path items scope, Vets context shardMax accepted
      (buildItems path element items scope) fun built =>
        Tidy accepted (.list element) (.array built) := by
    intro path items scope
    have hids : Vets context shardMax accepted (buildItems path element items scope) fun built =>
        ∀ idOf, element.idOf? = some idOf → OwnIds idOf built :=
      vets_forall (buildItems_vets hvetting) fun _ => vets_forall (buildItems_vets hvetting)
        fun hid => buildItems_ownIds hvetting hidentified hregistry hid
    exact ((helement.items element rfl path items scope).and hids).mono
      fun built h => .list h.1 h.2
  constructor
  · intro path value? scope
    unfold buildValue
    split
    · exact vets_pure fun value hvalue => by cases hvalue
    · have hempty : Tidy accepted (.list element) (.array []) :=
        .list (fun item hin => by cases hin) fun _ _ => ownIds_nil
      exact vets_pure fun value hvalue => Option.some.inj hvalue ▸ hempty
    · refine (hlist _ _ _).bind fun built hbuilt => ?_
      exact vets_pure fun value hvalue => Option.some.inj hvalue ▸ hbuilt
    · exact vets_fail
  · intro outer houter path items scope
    cases outer with
    | list =>
      cases houter
      rw [buildItems]
      refine (buildRows_vets hlist).mono fun built hbuilt item hin => ?_
      obtain ⟨row, rfl, hrow⟩ := hbuilt item hin
      exact hrow
    | any | scalar | reference | document | object => cases houter

/-- **All that is built is tidy**, if embedded documents are accepted. -/
theorem buildsTidy {node : Node} (hproper : node.Proper) :
    BuildsTidy context shardMax accepted node := by
  induction hproper with
  | scalar =>
    exact ⟨fun _ _ _ => (buildValue_vets hvetting).mono fun _ _ _ _ => .scalar,
      fun _ _ _ _ _ => (buildItems_vets hvetting).mono fun _ _ _ _ => .scalar⟩
  | reference =>
    exact ⟨fun _ _ _ => (buildValue_vets hvetting).mono fun _ _ _ _ => .reference,
      fun _ _ _ _ _ => (buildItems_vets hvetting).mono fun _ _ _ _ => .reference⟩
  | array =>
    refine ⟨fun _ _ _ => (buildValue_vets hvetting).mono fun _ _ _ _ => .array,
      fun element helement => ?_⟩
    cases element <;> cases helement
  | document => exact buildsTidy_document hvetting
  | list _ ih => exact buildsTidy_list hvetting hidentified hregistry ih
  | nested hnames _ ih =>
    exact buildsTidy_nested hvetting hnames fun _ _ hnode => ih _ (Fields.mem_of_node? hnode)

/-- **A patch keeps fields tidy.** -/
theorem mergeFields_tidy {node : Node} (hproper : node.Proper) {fields : Fields}
    (hnode : node = .nested fields) {stored patch : Object} {reserved : List String}
    (hstored : TidyFields accepted fields stored) :
    Vets context shardMax accepted (mergeFields path fields stored patch scope reserved)
      (TidyFields accepted fields) := by
  induction hproper generalizing fields path stored patch scope reserved with
  | scalar | reference | array | document | list => cases hnode
  | @nested own _ hfields ih =>
    cases hnode
    have hany : Vets context shardMax accepted
        (mergeFields path own stored patch scope reserved) fun _ => True :=
      mergeFields_vets hvetting
    refine vets_forall hany fun name => vets_forall hany fun node =>
      vets_forall hany fun hnode => ?_
    have hin := Fields.mem_of_node? hnode
    refine vets_logic.mergeFields_holds (buildValue_vets hvetting) (mergeFields_vets hvetting)
      (P := fun value? => ∀ value, value? = some value → Tidy accepted node value) hnode ?_ ?_
      (hstored name node hnode)
    · rintro inner rfl path patch scope value? hvalue
      have hinner : TidyFields accepted inner (fieldsOf value?) := by
        intro key other hother found hfound
        cases value? with
        | none => cases hfound
        | some value =>
          cases value with
          | object object => exact (hvalue _ rfl).fields key other hother found hfound
          | null | bool | number | string | array => cases hfound
      exact (ih _ hin rfl hinner).mono fun merged hmerged value hvalue =>
        Option.some.inj hvalue ▸ .nested hmerged
    · exact fun _ path value scope =>
        (buildsTidy hvetting hidentified hregistry (hfields _ hin)).value path (some value) scope

end Lists

end Build

/-! ### Documents are tidy to any depth -/

section Accepting
variable {context : Context} {shardMax : Nat}
  (hlimit : ∀ collection state, context.state collection = .ok state → state.shardMax = shardMax)
  (hregistry : context.registry.Proper) (hsource : context.source.Exact)
include hlimit hregistry hsource

/-- **Documents stay tidy down to each depth**, whatever is built. -/
theorem tidyTo_vetting (depth : Nat) (hfetched : ∀ collection id document,
      context.fetch collection id = .ok (some document) →
        Object.TidyTo context.registry depth collection document) :
    Vetting context shardMax (Object.TidyTo context.registry depth) := by
  induction depth with
  | zero => exact identified_vetting hlimit hregistry hsource hfetched
  | succ depth ih =>
    have hids : Vetting context shardMax (Object.Identifies context.registry) :=
      identified_vetting hlimit hregistry hsource fun collection id document hdocument =>
        (hfetched collection id document hdocument).identified
    have hinner : Vetting context shardMax (Object.TidyTo context.registry depth) :=
      ih fun collection id document hdocument => (hfetched collection id document hdocument).of_succ
    refine ⟨hlimit, hfetched, ?_, ?_⟩
    · intro collection tree id path input scope work after fields htree hid hvetted hbuilt
      have hproper := (hregistry.tree? htree).fields
      have hfields := (Build.buildFields_tidy hinner hproper.names (fun name node hnode =>
        Build.buildsTidy hinner (fun _ _ h => h.identified) hregistry
          (hproper.field _ (Fields.mem_of_node? hnode))) work
            (hvetted.mono fun _ _ h => h.of_succ)).of_ok hbuilt
      refine ⟨hids.inserted htree hid (hvetted.mono fun _ _ h => h.identified) hbuilt,
        fun own hown name node hnode value hvalue => ?_⟩
      rw [htree] at hown
      cases hown
      by_cases hname : name ∈ tree.managedKeys
      · have hne : name ≠ idKey := by
          rintro rfl
          exact (hregistry.tree? htree).noId (List.mem_map_of_mem (Fields.mem_of_node? hnode))
        rw [value?_stampNew_time context.now hname hne] at hvalue
        exact Option.some.inj hvalue ▸ .text
      · rw [value?_new hname] at hvalue
        exact hfields.2 name node hnode value hvalue
    · intro collection tree existing path patch scope work after merged htree hexisting hvetted
        hmerged
      have hfields := (Build.mergeFields_tidy hinner (fun _ _ h => h.identified) hregistry
        (hregistry.tree? htree).fields rfl (hexisting.2 tree htree) work
          (hvetted.mono fun _ _ h => h.of_succ)).of_ok hmerged
      refine ⟨hids.changed htree hexisting.identified (hvetted.mono fun _ _ h => h.identified)
        hmerged, fun own hown name node hnode value hvalue => ?_⟩
      rw [htree] at hown
      cases hown
      rw [Tree.value?_order, value?_stampChanged] at hvalue
      split_ifs at hvalue
      · exact Option.some.inj hvalue ▸ .text
      · exact hfields.2 name node hnode value hvalue

end Accepting

end DocumentDb
