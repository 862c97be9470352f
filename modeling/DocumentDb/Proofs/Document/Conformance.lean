import DocumentDb.Document.Builder
import DocumentDb.Proofs.Document.Ids
import DocumentDb.Proofs.Schema.Allowed

/-!
# Values that conform to a schema

`Fits` relates the nodes of a schema to the values that are stored for them, `Conforms` the schema
of a collection to its documents. Both are relative to which documents are *known*: references name
known documents only.

* A value fits a node if it is of its kind; a null does if the node takes nulls and its field is not
  required. Objects have all fields that must not be left out, and no undeclared ones if the schema
  is strict.
* `Node.Omissible`: a field that may be left out requires nothing at any depth.
* `FieldsFit`: the fields of an object fit, apart from those with reserved keys.
* `Conforms`: the first key of a document is the one of its id, its fields fit apart from those that
  documents keep by themselves, and the times are texts.
-/

namespace DocumentDb

/-- A field that may be left out. -/
inductive Node.Omissible : Node → Prop
  | field {node : Node} (hnested : ∀ fields, node ≠ .nested fields)
    (hrequired : node.isRequired = false) : Omissible node
  | nested {fields : Fields} (h : ∀ field ∈ fields, Omissible field.2) : Omissible (.nested fields)

/-- The nodes whose values may be null. -/
def Node.takesNull : Node → Bool
  | scalar _ rules => !rules.required
  | reference _ _ required => !required
  | document _ required => !required
  | _ => false

section Fits
variable (registry : Registry) (known : String → DocId → Prop)

/-- **A value fits a node** below a schema that is strict or not. -/
inductive Fits : Bool → Node → Value → Prop
  | null {strict : Bool} {node : Node} (h : node.takesNull = true) : Fits strict node .null
  | scalar {strict : Bool} {kind : ScalarKind} {rules : Rules} {value : Value}
    (h : rules.Allows kind value) : Fits strict (.scalar kind rules) value
  | reference {strict : Bool} {collection : String} {kind : IdKind} {required : Bool} {id : DocId}
    (h : known collection id) :
    Fits strict (.reference collection kind required) (DocumentDb.reference collection id)
  | array {strict : Bool} {rules : Rules} {items : List Value} :
    Fits strict (.array rules) (.array items)
  | list {strict : Bool} {element : Element} {items : List Value}
    (h : ∀ item ∈ items, Fits strict element.asNode item) :
    Fits strict (.list element) (.array items)
  | nested {strict : Bool} {fields : Fields} {object : Object}
    (hpresent : ∀ field ∈ fields, ∀ value, Object.value? object field.1 = some value →
      Fits strict field.2 value)
    (habsent : ∀ field ∈ fields, Object.value? object field.1 = none → field.2.Omissible)
    (hclosed : strict = true → ∀ key ∈ Object.keys object, key ∈ fields.names) :
    Fits strict (.nested fields) (.object object)
  | document {strict : Bool} {collection : String} {required : Bool} {tree : Tree}
    {document : Document} (htree : registry.tree? collection = some tree)
    (hhead : (Object.keys document).head? = some idKey)
    (hid : ∃ id, document.id? = some id ∧ tree.id.Admits id)
    (htimes : ∀ key ∈ tree.managedKeys, key ≠ idKey → ∀ value,
      Object.value? document key = some value → ∃ s, value = .string s)
    (hpresent : ∀ field ∈ tree.fields, field.1 ∉ tree.managedKeys → ∀ value,
      Object.value? document field.1 = some value → Fits tree.settings.strict field.2 value)
    (habsent : ∀ field ∈ tree.fields, field.1 ∉ tree.managedKeys →
      Object.value? document field.1 = none → field.2.Omissible)
    (hclosed : tree.settings.strict = true →
      ∀ key ∈ Object.keys document, key ∈ tree.fields.names ∨ key ∈ tree.managedKeys) :
    Fits strict (.document collection required) (.object document)

/-- The fields of an object fit their declarations; nothing is said about reserved keys. -/
structure FieldsFit (strict : Bool) (reserved : List String) (fields : Fields) (object : Object) :
    Prop where
  present : ∀ field ∈ fields, field.1 ∉ reserved → ∀ value,
    Object.value? object field.1 = some value → Fits registry known strict field.2 value
  absent : ∀ field ∈ fields, field.1 ∉ reserved → Object.value? object field.1 = none →
    field.2.Omissible
  closed : strict = true → ∀ key ∈ Object.keys object, key ∈ fields.names ∨ key ∈ reserved

/-- **A document conforms** to the schema of its collection. -/
structure Conforms (tree : Tree) (document : Document) : Prop where
  head : (Object.keys document).head? = some idKey
  id : ∃ id, document.id? = some id ∧ tree.id.Admits id
  times : ∀ key ∈ tree.managedKeys, key ≠ idKey → ∀ value,
    Object.value? document key = some value → ∃ s, value = .string s
  fields : FieldsFit registry known tree.settings.strict tree.managedKeys tree.fields document

end Fits

section Laws
variable {registry : Registry} {known known' : String → DocId → Prop} {strict : Bool}

theorem fits_nested_iff {fields : Fields} {object : Object} :
    Fits registry known strict (.nested fields) (.object object) ↔
      FieldsFit registry known strict [] fields object := by
  constructor
  · intro h
    cases h with
    | nested hpresent habsent hclosed =>
      exact {
        present := fun field hfield _ => hpresent field hfield
        absent := fun field hfield _ => habsent field hfield
        closed := fun hstrict key hkey => Or.inl (hclosed hstrict key hkey) }
  · intro h
    refine .nested (fun field hfield => h.present field hfield List.not_mem_nil)
      (fun field hfield => h.absent field hfield List.not_mem_nil) fun hstrict key hkey => ?_
    rcases h.closed hstrict key hkey with hin | hin
    · exact hin
    · cases hin

/-- An object fits a document of a collection exactly if it conforms to its schema. -/
theorem fits_document_iff {collection : String} {required : Bool} {document : Document} :
    Fits registry known strict (.document collection required) (.object document) ↔
      ∃ tree, registry.tree? collection = some tree ∧ Conforms registry known tree document := by
  constructor
  · intro h
    cases h with
    | document htree hhead hid htimes hpresent habsent hclosed =>
      exact ⟨_, htree, hhead, hid, htimes, hpresent, habsent, hclosed⟩
  · rintro ⟨tree, htree, h⟩
    exact .document htree h.head h.id h.times h.fields.present h.fields.absent h.fields.closed

theorem Conforms.fits {collection : String} {required : Bool} {tree : Tree} {document : Document}
    (htree : registry.tree? collection = some tree) (h : Conforms registry known tree document) :
    Fits registry known strict (.document collection required) (.object document) :=
  fits_document_iff.mpr ⟨tree, htree, h⟩

/-- A value keeps fitting when more documents are known. -/
theorem Fits.mono (hknown : ∀ collection id, known collection id → known' collection id)
    {node : Node} {value : Value} (h : Fits registry known strict node value) :
    Fits registry known' strict node value := by
  induction h with
  | null h => exact .null h
  | scalar h => exact .scalar h
  | reference h => exact .reference (hknown _ _ h)
  | array => exact .array
  | list _ ih => exact .list ih
  | nested _ habsent hclosed ih => exact .nested ih habsent hclosed
  | document htree hhead hid htimes _ habsent hclosed ih =>
    exact .document htree hhead hid htimes ih habsent hclosed

theorem FieldsFit.mono (hknown : ∀ collection id, known collection id → known' collection id)
    {reserved : List String} {fields : Fields} {object : Object}
    (h : FieldsFit registry known strict reserved fields object) :
    FieldsFit registry known' strict reserved fields object where
  present field hfield hreserved value hvalue :=
    (h.present field hfield hreserved value hvalue).mono hknown
  absent := h.absent
  closed := h.closed

theorem Conforms.mono (hknown : ∀ collection id, known collection id → known' collection id)
    {tree : Tree} {document : Document} (h : Conforms registry known tree document) :
    Conforms registry known' tree document where
  head := h.head
  id := h.id
  times := h.times
  fields := h.fields.mono hknown

/-- Every value fits the items of an untyped list. -/
theorem fits_any {value : Value} : Fits registry known strict Element.any.asNode value := by
  by_cases hnull : value = .null
  · rw [hnull]
    exact .null rfl
  · exact .scalar (.any hnull (by intro choices h; cases h))

theorem fits_cast {kind : ScalarKind} {rules : Rules} {field : String} {value built : Value}
    (h : rules.cast field kind value = .ok built) :
    Fits registry known strict (.scalar kind rules) built := by
  rcases Rules.cast_ok h with hallows | ⟨rfl, hrequired⟩
  · exact .scalar hallows
  · exact .null (by simp [Node.takesNull, hrequired])

/-- A field that is not there may be left out, and one that is there fits. -/
def FitsOrOmits (registry : Registry) (known : String → DocId → Prop) (strict : Bool) (node : Node)
    (value? : Option Value) : Prop :=
  match value? with
  | some value => Fits registry known strict node value
  | none => node.Omissible

theorem FitsOrOmits.mono (hknown : ∀ collection id, known collection id → known' collection id)
    {node : Node} {value? : Option Value} (h : FitsOrOmits registry known strict node value?) :
    FitsOrOmits registry known' strict node value? := by
  cases value? with
  | none => exact h
  | some value => exact Fits.mono hknown h

theorem fits_castField {kind : ScalarKind} {rules : Rules} {field : String}
    {value? built : Option Value} (h : rules.castField field kind value? = .ok built) :
    FitsOrOmits registry known strict (.scalar kind rules) built := by
  unfold Rules.castField at h
  split at h
  · obtain ⟨value, hcast, rfl⟩ := map_ok_iff.mp h
    exact fits_cast hcast
  · split at h
    · obtain ⟨value, hcast, rfl⟩ := map_ok_iff.mp h
      exact fits_cast hcast
    · split_ifs at h with hrequired
      · cases h
      · cases h
        exact .field (by simp) (by simpa [Node.isRequired] using hrequired)

/-! ### Objects whose fields are set -/

section Objects
variable {reserved : List String} {fields : Fields} {object : Object}

/-- An object without fields fits where all fields may be left out. -/
theorem fieldsFit_nil (h : ∀ field ∈ fields, field.2.Omissible) :
    FieldsFit registry known strict reserved fields [] where
  present _ _ _ _ hvalue := by cases hvalue
  absent field hfield _ _ := h field hfield
  closed _ key hkey := by cases hkey

/-- One more declared field in front that is left out. -/
theorem FieldsFit.cons_none {rest : Fields} {name : String} {node : Node} {others : Object}
    (hname : name ∉ rest.names) (homissible : node.Omissible)
    (hrest : FieldsFit registry known strict [] rest others)
    (hkeys : ∀ key ∈ Object.keys others, key ∈ rest.names) :
    FieldsFit registry known strict [] ((name, node) :: rest) others where
  present field hfield _ value hvalue := by
    rcases List.mem_cons.mp hfield with rfl | hin
    · exact absurd (hkeys _ (Object.mem_keys_of_value? hvalue)) hname
    · exact hrest.present field hin List.not_mem_nil value hvalue
  absent field hfield _ habsent := by
    rcases List.mem_cons.mp hfield with rfl | hin
    · exact homissible
    · exact hrest.absent field hin List.not_mem_nil habsent
  closed _ key hkey := Or.inl (List.mem_cons_of_mem _ (hkeys key hkey))

/-- One more declared field in front with its value. -/
theorem FieldsFit.cons_some {rest : Fields} {name : String} {node : Node} {value : Value}
    {others : Object} (hname : name ∉ rest.names) (hvalue : Fits registry known strict node value)
    (hrest : FieldsFit registry known strict [] rest others)
    (hkeys : ∀ key ∈ Object.keys others, key ∈ rest.names) :
    FieldsFit registry known strict [] ((name, node) :: rest) ((name, value) :: others) where
  present field hfield _ found hfound := by
    rcases List.mem_cons.mp hfield with rfl | hin
    · rw [Object.value?, if_pos rfl] at hfound
      cases hfound
      exact hvalue
    · have hne : name ≠ field.1 := fun heq => hname (heq ▸ List.mem_map_of_mem hin)
      rw [Object.value?, if_neg hne] at hfound
      exact hrest.present field hin List.not_mem_nil found hfound
  absent field hfield _ habsent := by
    rcases List.mem_cons.mp hfield with rfl | hin
    · rw [Object.value?, if_pos rfl] at habsent; cases habsent
    · have hne : name ≠ field.1 := fun heq => hname (heq ▸ List.mem_map_of_mem hin)
      rw [Object.value?, if_neg hne] at habsent
      exact hrest.absent field hin List.not_mem_nil habsent
  closed _ key hkey := by
    rcases List.mem_cons.mp hkey with rfl | hin
    · exact Or.inl List.mem_cons_self
    · exact Or.inl (List.mem_cons_of_mem _ (hkeys key hin))

/-- The object that a patch of a nested object is applied to: none counts as empty. -/
theorem FieldsFit.inner (h : FieldsFit registry known strict reserved fields object) {key : String}
    {inner : Fields} (hnode : fields.node? key = some (.nested inner)) (hkey : key ∉ reserved) :
    FieldsFit registry known strict [] inner
      (((Object.value? object key).bind Value.object?).getD []) := by
  have hin := Fields.mem_of_node? hnode
  cases hvalue : Object.value? object key with
  | none =>
    have homissible : (Node.nested inner).Omissible := h.absent _ hin hkey hvalue
    cases homissible with
    | field hnested _ => exact absurd rfl (hnested inner)
    | nested hfields => exact fieldsFit_nil hfields
  | some value =>
    have hfits : Fits registry known strict (.nested inner) value := h.present _ hin hkey _ hvalue
    cases value with
    | object nestedObject => exact fits_nested_iff.mp hfits
    | null => cases hfits with | null hnull => cases hnull
    | _ => cases hfits

/-- Undeclared fields behind the declared ones, which a strict schema does not have. -/
theorem FieldsFit.append {others : Object} (h : FieldsFit registry known strict [] fields object)
    (hothers : ∀ key ∈ Object.keys others, key ∉ fields.names)
    (hstrict : strict = true → others = []) :
    FieldsFit registry known strict [] fields (object ++ others) where
  present field hfield hreserved value hvalue := by
    rw [Object.value?_append] at hvalue
    cases hfound : Object.value? object field.1 with
    | some found =>
      rw [hfound, Option.some_or] at hvalue
      cases hvalue
      exact h.present field hfield hreserved _ hfound
    | none =>
      rw [hfound, Option.none_or] at hvalue
      exact absurd (List.mem_map_of_mem hfield) (hothers _ (Object.mem_keys_of_value? hvalue))
  absent field hfield hreserved hnone := by
    rw [Object.value?_append] at hnone
    exact h.absent field hfield hreserved (Option.or_eq_none_iff.mp hnone).1
  closed hclosed key hkey := by
    rw [hstrict hclosed, List.append_nil] at hkey
    exact h.closed hclosed key hkey

/-- Objects with the same values of all keys fit alike. -/
theorem FieldsFit.congr {other : Object}
    (h : FieldsFit registry known strict reserved fields object)
    (heq : ∀ key, Object.value? other key = Object.value? object key) :
    FieldsFit registry known strict reserved fields other where
  present field hfield hreserved value hvalue :=
    h.present field hfield hreserved value (by rw [← heq]; exact hvalue)
  absent field hfield hreserved hnone :=
    h.absent field hfield hreserved (by rw [← heq]; exact hnone)
  closed hstrict key hkey := by
    refine h.closed hstrict key ?_
    obtain ⟨value, hvalue⟩ := Object.exists_value?_of_mem_keys hkey
    rw [heq] at hvalue
    exact Object.mem_keys_of_value? hvalue

/-- Setting a declared field to a value that fits. -/
theorem FieldsFit.put (h : FieldsFit registry known strict reserved fields object) {key : String}
    {node : Node} {value : Value} (hnodup : fields.names.Nodup)
    (hnode : fields.node? key = some node)
    (hvalue : Fits registry known strict node value) :
    FieldsFit registry known strict reserved fields (object.put key value) where
  present field hfield hreserved found hfound := by
    rw [Object.value?_put] at hfound
    split_ifs at hfound with hkey
    · cases hfound
      have := Fields.node?_of_mem hnodup hfield
      rw [← hkey, hnode] at this
      cases this
      exact hvalue
    · exact h.present field hfield hreserved found hfound
  absent field hfield hreserved hnone := by
    rw [Object.value?_put] at hnone
    split_ifs at hnone
    exact h.absent field hfield hreserved hnone
  closed hstrict other hother := by
    rcases Object.mem_keys_put.mp hother with rfl | hin
    · exact Or.inl (Fields.declares_iff.mp (by simp [Fields.declares, hnode]))
    · exact h.closed hstrict other hin

/-- Setting a key that is not declared or reserved, which a strict schema allows only for the
latter. -/
theorem FieldsFit.put_other (h : FieldsFit registry known strict reserved fields object)
    {key : String} {value : Value} (hkey : key ∉ fields.names ∨ key ∈ reserved)
    (hstrict : strict = true → key ∈ reserved) :
    FieldsFit registry known strict reserved fields (object.put key value) where
  present field hfield hreserved found hfound := by
    rw [Object.value?_put] at hfound
    split_ifs at hfound with heq
    · rcases hkey with hkey | hkey
      · exact absurd (List.mem_map_of_mem hfield) (heq ▸ hkey)
      · exact absurd (heq ▸ hkey) hreserved
    · exact h.present field hfield hreserved found hfound
  absent field hfield hreserved hnone := by
    rw [Object.value?_put] at hnone
    split_ifs at hnone
    exact h.absent field hfield hreserved hnone
  closed hclosed other hother := by
    rcases Object.mem_keys_put.mp hother with rfl | hin
    · exact Or.inr (hstrict hclosed)
    · exact h.closed hclosed other hin

/-- Leaving out a field that may be left out. -/
theorem FieldsFit.without (h : FieldsFit registry known strict reserved fields object)
    {key : String} {node : Node} (hnodup : fields.names.Nodup)
    (hnode : fields.node? key = some node) (homissible : node.Omissible) :
    FieldsFit registry known strict reserved fields (object.without key) where
  present field hfield hreserved found hfound := by
    rw [Object.value?_without] at hfound
    split_ifs at hfound
    exact h.present field hfield hreserved found hfound
  absent field hfield hreserved hnone := by
    rw [Object.value?_without] at hnone
    split_ifs at hnone with hkey
    · have := Fields.node?_of_mem hnodup hfield
      rw [hkey, hnode] at this
      cases this
      exact homissible
    · exact h.absent field hfield hreserved hnone
  closed hstrict other hother := by
    refine h.closed hstrict other ?_
    unfold Object.without Object.keys at hother
    obtain ⟨field, hfield, rfl⟩ := List.mem_map.mp hother
    exact List.mem_map_of_mem (List.mem_of_mem_filter hfield)

end Objects

end Laws

end DocumentDb
