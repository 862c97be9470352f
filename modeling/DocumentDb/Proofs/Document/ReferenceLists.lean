import DocumentDb.Proofs.Document.FieldValues
import DocumentDb.Proofs.Document.Vetting

/-!
# Stored lists of references

A list of references is stored in one form only: its items are references to the declared
collection, by ids that its rule admits, and each id stands in it once. That is so wherever a list
of references is declared, at the top level of a document or inside nested objects, and it stays so
whatever documents are removed later: nothing is said here about which references lead to stored
documents.

Two properties of documents are accepted one after the other (see `Vetting`): first that their ids
are admitted, whatever their fields hold, and then, with this known of all embedded documents, the
form of their lists.
-/

namespace DocumentDb

/-! ### The form of documents -/

/-- **The items of a stored list of references** to a collection. -/
structure Refers (registry : Registry) (target : String) (items : List Value) : Prop where
  each : ∀ item ∈ items, ∃ tree id, registry.tree? target = some tree ∧ tree.id.Admits id ∧
    item = reference target id
  once : (items.filterMap Value.referenceId?).Nodup

/-- Whatever stands behind segments is a list of references. -/
def Object.RefersAt (registry : Registry) (target : String) (object : Object)
    (segments : List String) : Prop :=
  ∀ value, object.follow? segments = some value →
    ∃ items, value = .array items ∧ Refers registry target items

/-- The rule of its collection admits the id of a document. -/
def Object.Identifies (registry : Registry) (collection : String) (document : Document) : Prop :=
  ∃ tree id, registry.tree? collection = some tree ∧ document.id? = some id ∧ tree.id.Admits id

/-- **A document has the form of its collection** as far as its id, its time of change and its lists
of references go. Documents keep some keys by themselves, whatever is declared for these. -/
structure Object.WellFormed (registry : Registry) (collection : String) (document : Document) :
    Prop where
  identified : document.Identifies registry collection
  stamped : ∀ tree, registry.tree? collection = some tree → tree.settings.updatedAt = true →
    ∃ time : Instant, Object.value? document updatedKey = some (.string time.text)
  lists : ∀ tree, registry.tree? collection = some tree → ∀ name rest target kind,
    tree.fields.follow? (name :: rest) = some (.list (.reference target kind)) →
      name ∉ tree.managedKeys → document.RefersAt registry target (name :: rest)

theorem refers_nil {registry : Registry} {target : String} : Refers registry target [] :=
  ⟨nofun, List.nodup_nil⟩

/-- Leaving out items keeps the form of a list. -/
theorem Refers.sublist {registry : Registry} {target : String} {items kept : List Value}
    (h : Refers registry target items) (hsublist : kept.Sublist items) :
    Refers registry target kept where
  each item hin := h.each item (hsublist.subset hin)
  once := h.once.sublist (hsublist.filterMap _)

namespace Build

section Lists
variable {context : Context} {shardMax : Nat} {accepted : String → Document → Prop}
  {path name : String} {node : Node} {fields : Fields} {input : Object} {scope : Scope}
  {reserved : List String} (hvetting : Vetting context shardMax accepted)
include hvetting

/-! ### Values of declared fields -/

omit hvetting in
theorem vets_logic : Logic fun {α} => Vets (α := α) context shardMax accepted :=
  ⟨vets_pure, vets_lift, Vets.bind⟩

theorem buildField_vets :
    Vets context shardMax accepted (buildField path name node input scope) fun _ => True :=
  Composed.vets hvetting
    (buildField_composed path name node input scope fun _ _ _ _ _ => trivial)

theorem buildValue_vets {value? : Option Value} :
    Vets context shardMax accepted (buildValue path node value? scope) fun _ => True :=
  Composed.vets hvetting
    (buildValue_composed path node value? scope fun _ _ _ _ _ => trivial)

/-! ### Lists of references -/

variable {target : String} {kind : IdKind} (hidentified : ∀ document, accepted target document →
  Object.Identifies context.registry target document)
include hidentified

theorem buildReference_refers {value : Value} : Vets context shardMax accepted
    (buildReference path target value) fun built => ∃ tree id,
      context.registry.tree? target = some tree ∧ tree.id.Admits id ∧
        built = reference target id := by
  unfold buildReference
  split_ifs
  · refine (space_vets hvetting).bind ?_
    rintro space ⟨rfl, hspace⟩
    obtain ⟨tree, htree, hrule⟩ := hspace.rule
    refine vets_lift.mono fun built hbuilt => ?_
    obtain ⟨id, hid, hadmits, -⟩ := IdSpace.checkReference_ok hbuilt
    exact ⟨tree, id, htree, hrule ▸ hadmits, hid⟩
  · split
    · refine (embedDocument_vets hvetting (fun _ _ _ _ _ => buildFields_vets hvetting)
        fun _ _ _ _ _ _ => mergeFields_vets hvetting).bind fun document hdocument => ?_
      obtain ⟨tree, id, htree, hid, hadmits⟩ := hidentified document hdocument
      rw [hid]
      exact vets_pure ⟨tree, id, htree, hadmits, rfl⟩
    · exact vets_fail

theorem buildReferences_refers {index : Nat} {items : List Value} :
    Vets context shardMax accepted (buildReferences path target index items) fun built =>
      ∀ item ∈ built, ∃ tree id, context.registry.tree? target = some tree ∧ tree.id.Admits id ∧
        item = reference target id := by
  induction items generalizing index with
  | nil =>
    rw [buildReferences]
    exact vets_pure nofun
  | cons item rest ih =>
    rw [buildReferences]
    refine (buildReference_refers hvetting hidentified).bind fun first hfirst => ?_
    exact ih.bind fun others hothers => vets_pure (List.forall_mem_cons.mpr ⟨hfirst, hothers⟩)

end Lists

end Build

/-! ### What is stored and built -/

section Accepting
variable {context : Context} {shardMax : Nat}
  (hlimit : ∀ collection state, context.state collection = .ok state → state.shardMax = shardMax)
  (hregistry : context.registry.Proper) (hsource : context.source.Exact)

section Stamps
variable {tree : Tree} {name : String} (hname : name ∉ tree.managedKeys) (now : Instant)
include hname

/-- A new document has the values that were built for it, but for the keys that it keeps itself. -/
theorem value?_new (id : DocId) (fields : Object) :
    Object.value? (Build.stampNew tree now ((idKey, id.toValue) :: fields)) name =
      Object.value? fields name := by
  have hid : idKey ≠ name := by
    rintro rfl
    exact hname List.mem_cons_self
  have hcreated : ¬ (tree.settings.createdAt = true ∧ createdKey = name) := by
    rintro ⟨hset, rfl⟩
    exact hname (created_mem_managed hset)
  have hupdated : ¬ (tree.settings.updatedAt = true ∧ updatedKey = name) := by
    rintro ⟨hset, rfl⟩
    exact hname (updated_mem_managed hset)
  rw [value?_stampNew, if_neg hupdated, if_neg hcreated, Object.value?, if_neg hid]

/-- A changed document has the values that the patch made, but for the keys that it keeps itself. -/
theorem value?_changed (merged : Document) :
    Object.value? (tree.order (Build.stampChanged tree now merged)) name =
      Object.value? merged name := by
  have hupdated : ¬ (tree.settings.updatedAt = true ∧ updatedKey = name) := by
    rintro ⟨hset, rfl⟩
    exact hname (updated_mem_managed hset)
  rw [Tree.value?_order, value?_stampChanged, if_neg hupdated]

end Stamps

include hlimit hregistry hsource

/-- Ids stay admitted: new ones are, and a change keeps the id. -/
theorem identified_vetting (hfetched : ∀ collection id document,
      context.fetch collection id = .ok (some document) →
        Object.Identifies context.registry collection document) :
    Vetting context shardMax (Object.Identifies context.registry) where
  limit := hlimit
  fetched := hfetched
  inserted := by
    intro collection tree id path input scope work after fields htree hid _ _
    obtain ⟨own, hown, hadmits⟩ := hid.admits hregistry hsource
    rw [htree] at hown
    cases hown
    exact ⟨tree, id, htree, id?_new context.now hadmits (hregistry.tree? htree).id, hadmits⟩
  changed := by
    intro collection tree existing path patch scope work after merged htree hexisting _ hmerged
    obtain ⟨own, id, hown, hid, hadmits⟩ := hexisting
    have hkept := (Build.mergeFields_reserved path tree.fields existing patch scope
      tree.managedKeys).of_ok hmerged idKey List.mem_cons_self
    exact ⟨own, id, hown, (id?_order _ _).trans (id?_changed context.now hid hkept), hadmits⟩

end Accepting

end DocumentDb
