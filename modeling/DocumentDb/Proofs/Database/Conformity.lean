import DocumentDb.Proofs.Database.Runs
import Mathlib

/-!
# Stored documents along runs

Over a store that is empty at first, after any calls on any collections, successful or failing, all
stored documents conform to the schemas of their collections. If nothing was removed and no write
fails, every reference that stands where one is declared leads to a stored document.

`Occurs` is where a value stands in another one by the schema, through nested objects, lists and
embedded documents.
-/

namespace DocumentDb

/-! ### Places -/

/-- **A value stands at a node**, inside a value that stands at another one. -/
inductive Occurs (registry : Registry) : Node → Value → Node → Value → Prop
  | here {node : Node} {value : Value} : Occurs registry node value node value
  | field {fields : Fields} {object : Object} {name : String} {node inner : Node}
    {value found : Value} (hnode : fields.node? name = some node)
    (hvalue : Object.value? object name = some value)
    (h : Occurs registry node value inner found) :
    Occurs registry (.nested fields) (.object object) inner found
  | item {element : Element} {items : List Value} {item found : Value} {inner : Node}
    (hitem : item ∈ items) (h : Occurs registry element.asNode item inner found) :
    Occurs registry (.list element) (.array items) inner found
  | embedded {collection name : String} {required : Bool} {tree : Tree} {document : Document}
    {node inner : Node} {value found : Value} (htree : registry.tree? collection = some tree)
    (hnode : tree.fields.node? name = some node)
    (hvalue : Object.value? document name = some value)
    (h : Occurs registry node value inner found) :
    Occurs registry (.document collection required) (.object document) inner found

section Places
variable {registry : Registry} {known : String → DocId → Prop} {node inner : Node}
  {value found : Value}

/-- Nothing else stands inside a text. -/
theorem Occurs.eq_of_string {s : String}
    (h : Occurs registry node value inner found) (hvalue : value = .string s) :
    found = .string s := by
  cases h with
  | here => exact hvalue
  | field | item | embedded => cases hvalue

/-- **What stands inside a value that fits, fits as well.** Times that documents keep by themselves
are texts, also where another field is declared. -/
theorem Occurs.fits (hregistry : registry.Proper) (h : Occurs registry node value inner found)
    {strict : Bool} (hfits : Fits registry known strict node value) :
    (∃ strict, Fits registry known strict inner found) ∨ ∃ s, found = .string s := by
  induction h generalizing strict with
  | here => exact Or.inl ⟨strict, hfits⟩
  | field hnode hvalue _ ih =>
    cases hfits with
    | nested hpresent _ _ => exact ih (hpresent _ (Fields.mem_of_node? hnode) _ hvalue)
  | item hitem _ ih =>
    cases hfits with
    | list hitems => exact ih (hitems _ hitem)
  | @embedded _ name _ tree _ _ _ _ _ htree hnode hvalue h ih =>
    have hin := Fields.mem_of_node? hnode
    cases hfits with
    | document hown _ _ htimes hpresent _ _ =>
      rw [htree] at hown
      cases hown
      by_cases hmanaged : name ∈ tree.managedKeys
      · have hne : name ≠ idKey := by
          rintro rfl
          exact (hregistry.tree? htree).noId (List.mem_map_of_mem hin)
        obtain ⟨s, hs⟩ := htimes name hmanaged hne _ hvalue
        exact Or.inr ⟨s, h.eq_of_string hs⟩
      · exact ih (hpresent _ hin hmanaged _ hvalue)

/-- An object that stands at a reference is a reference to a known document. -/
theorem Occurs.reference (hregistry : registry.Proper) {collection : String} {kind : IdKind}
    {required : Bool} {object : Object}
    (h : Occurs registry node value (.reference collection kind required) (.object object))
    {strict : Bool} (hfits : Fits registry known strict node value) :
    ∃ id, known collection id ∧ Value.object object = DocumentDb.reference collection id := by
  rcases h.fits hregistry hfits with ⟨strict, hreference⟩ | ⟨s, hs⟩
  · generalize hobject : Value.object object = value at hreference
    cases hreference with
    | null => cases hobject
    | reference hknown => exact ⟨_, hknown, rfl⟩
  · cases hs

end Places

/-! ### Conformity and references -/

section Documents
variable {σ : Type} {database : Database σ} {view : σ → MemoryStore} {faults : Prop}
  (hregistry : database.registry.Compiled) (hsource : database.source.Exact)
  {start running : Running σ} (hempty : ∀ name, (view start.store).documents name = [])
include hregistry hsource hempty

/-- **Stored documents conform to their schemas** in every state that calls lead to. -/
theorem documents_conform (hbackend : database.backend.ActsLike view faults)
    (hreaches : database.Reaches (fun _ => True) start running) {name : String}
    {document : Document} (hin : document ∈ (view running.store).documents name) :
    ∃ tree, database.registry.tree? name = some tree ∧
      Conforms database.registry (fun _ _ => True) tree document := by
  have hsound := Reaches.sound_of_empty hbackend hregistry hsource hreaches hempty
  obtain ⟨tree, htree, hconforms⟩ := hsound.conform name document hin
  exact ⟨tree, htree, hconforms.mono fun _ _ _ => trivial⟩

end Documents

/-- A box that embeds an item and refers to another one. -/
def oneBox : Document :=
  [("id", .number (.int 1)), ("a", .object [("id", .number (.int 1)), ("x", .number (.int 5))]),
    ("r", reference "items" (.number 2))]

/-- The state after the box and its items were inserted. -/
def boxed : Running MemoryStore :=
  ((Collection.mk (boxDatabase MemoryStore.backend) boxTree).perform ⟨0, 0⟩
    (.insert (.object [("a", .object [("x", .number (.int 5))]),
      ("r", .object [("y", .number (.int 6))])])) noBoxes).2

theorem documents_boxed : boxed.store.documents "boxes" = [oneBox] := by cbv

theorem noBoxes_step {allowed : Call → Prop} (hallowed : ∀ raw, allowed (.insert raw)) :
    (boxDatabase MemoryStore.backend).Step allowed noBoxes boxed := by
  have hcollection : (boxDatabase MemoryStore.backend).collection "boxes" =
      .ok ⟨boxDatabase MemoryStore.backend, boxTree⟩ := rfl
  exact .call hcollection (hallowed _)

theorem oneBox_conforms : ∃ tree, (boxDatabase MemoryStore.backend).registry.tree? "boxes" =
    some tree ∧
      Conforms (boxDatabase MemoryStore.backend).registry (fun _ _ => True) tree oneBox :=
  documents_conform boxes_compiled (IdSource.ofBytes_exact _) (fun _ => rfl)
    MemoryStore.backend_actsLike (.single (noBoxes_step fun _ => trivial))
    (documents_boxed ▸ List.mem_singleton_self oneBox)

section References
variable {σ : Type} {database : Database σ} {view : σ → MemoryStore}

/-- **References lead to stored documents** while nothing is removed, wherever they stand. -/
theorem references_lead (hregistry : database.registry.Compiled)
    (hsource : database.source.Exact) (hbackend : database.backend.ActsLike view False)
    {start running : Running σ} (hempty : ∀ name, (view start.store).documents name = [])
    (hreaches : database.Reaches (fun call => ¬ call.Removes) start running) {name : String}
    {document : Document} (hin : document ∈ (view running.store).documents name)
    {required required' : Bool} {target : String} {kind : IdKind} {object : Object}
    (hoccurs : Occurs database.registry (.document name required) (.object document)
      (.reference target kind required') (.object object)) :
    ∃ id, Value.object object = reference target id ∧ ∃ found,
      database.backend.fetch running.store target id = .ok (some found) ∧ found.id? = some id := by
  have hsound : (view running.store).Sound database.registry ((view running.store).Knows False) :=
    Reaches.sound hbackend hregistry hsource id (fun _ hkept hremoves => hkept hremoves) hreaches
      (MemoryStore.sound_empty hempty)
  obtain ⟨tree, htree, hconforms⟩ := hsound.conform name document hin
  have hfits : Fits database.registry _ false (.document name required) (.object document) :=
    hconforms.fits htree
  obtain ⟨id, hknown, heq⟩ := hoccurs.reference hregistry.proper hfits
  obtain ⟨found, hfound⟩ := MemoryStore.has_iff_find.mp (hknown.resolve_left not_false)
  refine ⟨id, heq, found, ?_, (findDocument_eq_some hfound).2⟩
  rw [hbackend.fetch, hfound]

end References

/-- The reference of the box leads to an item. -/
theorem oneBox_leads : ∃ id, reference "items" (.number 2) = reference "items" id ∧ ∃ found,
    (boxDatabase MemoryStore.backend).backend.fetch boxed.store "items" id = .ok (some found) ∧
      found.id? = some id := by
  have hoccurs : Occurs (boxDatabase MemoryStore.backend).registry (.document "boxes" false)
      (.object oneBox) (.reference "items" .incr false) (reference "items" (.number 2)) := by
    have hnode : boxTree.fields.node? "r" = some (.reference "items" .incr false) := rfl
    exact .embedded rfl hnode rfl .here
  exact references_lead boxes_compiled (IdSource.ofBytes_exact _) MemoryStore.backend_actsLike
    (fun _ => rfl) (.single (noBoxes_step fun _ h => h))
    (documents_boxed ▸ List.mem_singleton_self oneBox) hoccurs

end DocumentDb
