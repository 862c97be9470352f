import DocumentDb.Document.Listing
import DocumentDb.Proofs.Document.Confinement

/-!
# The items that an edit of a list writes

An edit of a list writes all items of the new list, those that it adds or changes and those that it
only keeps. So the builder goes through the kept items as well, and through every document that they
mention. Here is where the items of a new list come from, and what a patch mentions that writes
them.
-/

namespace DocumentDb

/-! ### Where items come from -/

theorem mem_editFirst {α : Type} {test : α → Bool} {edit : α → α} {items : List α} {item : α}
    (h : item ∈ editFirst test edit items) :
    item ∈ items ∨ ∃ old, items.find? test = some old ∧ item = edit old := by
  induction items with
  | nil => cases h
  | cons head rest ih =>
    rw [editFirst] at h
    split_ifs at h with htest
    · rcases List.mem_cons.mp h with rfl | hin
      · exact Or.inr ⟨head, List.find?_cons_of_pos htest, rfl⟩
      · exact Or.inl (List.mem_cons_of_mem _ hin)
    · rcases List.mem_cons.mp h with rfl | hin
      · exact Or.inl List.mem_cons_self
      · rcases ih hin with hin | ⟨old, hold, heq⟩
        · exact Or.inl (List.mem_cons_of_mem _ hin)
        · exact Or.inr ⟨old, by rw [List.find?_cons_of_neg htest, hold], heq⟩

/-- The items that an expression selects for editing. -/
def Expression.selected (e : Expression) (items : List Value) : List Value :=
  if e.operator = .strictEq then (items.find? e.holdsOfItem).toList
  else items.filter e.holdsOfItem

theorem Expression.mem_of_selected {e : Expression} {items : List Value} {item : Value}
    (h : item ∈ e.selected items) : item ∈ items := by
  unfold selected at h
  split_ifs at h
  · exact List.mem_of_find?_eq_some (Option.mem_toList.mp h)
  · exact List.mem_of_mem_filter h

theorem Expression.mem_edit {e : Expression} {edit : Value → Value} {items : List Value}
    {item : Value} (h : item ∈ e.edit edit items) :
    item ∈ items ∨ ∃ old ∈ e.selected items, item = edit old := by
  unfold Expression.edit at h
  unfold selected
  split at h
  · next hstrict =>
    rw [if_pos hstrict]
    rcases mem_editFirst h with hin | ⟨old, hold, heq⟩
    · exact Or.inl hin
    · exact Or.inr ⟨old, Option.mem_toList.mpr hold, heq⟩
  · next hstrict =>
    rw [if_neg hstrict]
    obtain ⟨old, hold, rfl⟩ := List.mem_map.mp h
    split_ifs with htest
    · exact Or.inr ⟨old, List.mem_filter.mpr ⟨hold, htest⟩, rfl⟩
    · exact Or.inl hold

/-! ### What edits give -/

namespace Listing

variable {path : String}

theorem single_ok {updates : List Value} {update : Value}
    (h : single path updates = .ok update) : updates = [update] := by
  unfold single at h
  split at h
  · cases h
    rfl
  · cases h

theorem updateFields_ok {update : Value} {fields : Object}
    (h : updateFields path update = .ok fields) : update = .object fields := by
  unfold updateFields at h
  split at h
  · cases h
    rfl
  · cases h

theorem mem_of_allFields {updates : List Value} {index : Nat} {objects : List Object}
    (h : allFields path index updates = .ok objects) :
    ∀ object ∈ objects, Value.object object ∈ updates := by
  induction updates generalizing index objects with
  | nil => cases h; intro object hin; cases hin
  | cons update rest ih =>
    obtain ⟨first, hfirst, h⟩ := bind_ok_iff.mp h
    obtain ⟨others, hothers, h⟩ := bind_ok_iff.mp h
    cases h
    intro object hin
    rcases List.mem_cons.mp hin with rfl | hin
    · rw [updateFields_ok hfirst]
      exact List.mem_cons_self
    · exact List.mem_cons_of_mem _ (ih hothers object hin)

theorem mem_of_withIds {objects : List Object} {index : Nat} {updates : List (DocId × Object)}
    (h : withIds path index objects = .ok updates) :
    ∀ update ∈ updates, update.2 ∈ objects ∧ Object.id? update.2 = some update.1 := by
  induction objects generalizing index updates with
  | nil => cases h; intro update hin; cases hin
  | cons object rest ih =>
    unfold withIds at h
    split at h
    · next id hid =>
      obtain ⟨others, hothers, h⟩ := bind_ok_iff.mp h
      cases h
      intro update hin
      rcases List.mem_cons.mp hin with rfl | hin
      · exact ⟨List.mem_cons_self, hid⟩
      · obtain ⟨hmem, hown⟩ := ih hothers update hin
        exact ⟨List.mem_cons_of_mem _ hmem, hown⟩
    · cases h

/-- What adding values to a list of documents gives. -/
theorem insert_ok {target : String} {current values items : List Value} {context : Context}
    {work : Work}
    (h : (insert path (.document target) current values context work).1 = .ok items) :
    items = collapse DocId.ofIdOrObject? (current ++ values) := by
  rw [insert, Build.bind_eq] at h
  split at h
  · rw [Build.bind_eq] at h
    split at h
    · cases h; rfl
    · cases h
  · cases h

/-- Updates chosen by a key are laid over the documents whose ids they have. -/
theorem updateByKey_ok {target key : String} {current updates items : List Value}
    (h : updateByKey path (.document target) key current updates = .ok items) :
    ∃ pairs : List (DocId × Object),
      (∀ pair ∈ pairs, Value.object pair.2 ∈ updates ∧ Object.id? pair.2 = some pair.1) ∧
      overlayDocuments target pairs current = .ok items := by
  rw [updateByKey] at h
  split_ifs at h
  · cases h
  · obtain ⟨objects, hobjects, h⟩ := bind_ok_iff.mp h
    obtain ⟨pairs, hpairs, h⟩ := bind_ok_iff.mp h
    refine ⟨pairs, fun pair hpair => ?_, h⟩
    obtain ⟨hmem, hid⟩ := mem_of_withIds hpairs pair hpair
    exact ⟨mem_of_allFields hobjects _ hmem, hid⟩

/-- The update of documents that an expression chooses has no id. -/
theorem updateByExpression_ok {target : String} {e : Expression}
    {current updates items : List Value}
    (h : updateByExpression path (.document target) e current updates = .ok items) :
    ∃ update : Object, Value.object update ∈ updates ∧ Object.value? update idKey = none ∧
      items = e.edit (overlay update) current := by
  rw [updateByExpression] at h
  split_ifs at h
  · cases h
  · cases h
  · obtain ⟨only, honly, h⟩ := bind_ok_iff.mp h
    obtain ⟨update, hupdate, h⟩ := bind_ok_iff.mp h
    split_ifs at h with hempty hhas
    cases h
    obtain rfl := single_ok honly
    obtain rfl := updateFields_ok hupdate
    have hid : Object.value? update idKey = none :=
      Object.value?_eq_none_iff.mpr fun hin => hhas (Object.has_iff.mpr hin)
    exact ⟨update, List.mem_singleton_self _, hid, rfl⟩

end Listing

/-! ### What items mention -/

section Mentioning
variable {registry : Registry} {skip skip' asked asked' : String → Object → Prop}
  {node : Node} {value : Value} {target : String}

theorem Mentions.unskipped {collection : String} {object : Object}
    (h : Mentions registry skip node value collection object) :
    Mentions registry (fun _ _ => False) node value collection object := by
  induction h with
  | own hstands => exact .own hstands
  | inside hstands _ htree _ ih => exact .inside hstands not_false htree ih
  | field hfield hvalue _ ih => exact .field hfield hvalue ih
  | item hitem _ ih => exact .item hitem ih

theorem Mentioned.mono (h : Mentioned registry skip asked node value)
    (hasked : ∀ collection object, asked collection object → asked' collection object) :
    Mentioned registry skip asked' node value := fun collection object hmentions =>
  hasked collection object (h collection object hmentions)

/-- An object mentions itself and what its fields mention. -/
theorem Mentioned.of_document {input : Object} (hown : asked target input)
    (hfields : ∀ tree, registry.tree? target = some tree →
      Mentioned registry skip asked (.nested tree.fields) (.object input)) :
    Mentioned registry skip asked (.document target false) (.object input) := by
  intro other object hmentions
  cases hmentions with
  | own hstands => cases hstands; exact hown
  | inside hstands _ htree hmentions =>
    cases hstands
    exact hfields _ htree other object hmentions

/-- A copy with an update laid over it mentions what the copy mentions and what the update
mentions. -/
theorem Mentioned.overlay {copy update : Object}
    (hcopy : Mentioned registry skip asked (.document target false) (.object copy))
    (hskip : ¬ skip target copy)
    (hupdate : ∀ tree, registry.tree? target = some tree →
      Mentioned registry skip asked (.nested tree.fields) (.object update))
    (hown : asked target (Object.putAll copy update)) :
    Mentioned registry skip asked (.document target false) (.object (Object.putAll copy update)) :=
  .of_document hown fun tree htree => .of_fields fun _ _ _ hfield hvalue => by
    rcases Object.mem_putAll hvalue with hin | hin
    · exact (hcopy.inside rfl hskip htree).field hfield hin
    · exact (hupdate tree htree).field hfield hin

/-- The patch that writes items behind a path mentions what the items mention. -/
theorem Mentioned.behind {fields : Fields} {element : Element} {items : List Value}
    (hproper : (Node.nested fields).Proper)
    (hitems : ∀ item ∈ items, Mentioned registry skip asked element.asNode item)
    {segments : List String} (hfollow : fields.follow? segments = some (.list element)) :
    Mentioned registry skip asked (.nested fields)
      (segments.foldr (fun name value => .object [(name, value)]) (.array items)) := by
  induction segments generalizing fields with
  | nil => cases hfollow
  | cons name rest ih =>
    refine .of_fields fun key node value hfield hvalue => ?_
    cases List.mem_singleton.mp hvalue
    have hnode := Fields.node?_of_mem hproper.names hfield
    cases rest with
    | nil =>
      rw [Fields.follow?, hnode] at hfollow
      cases hfollow
      intro other object hmentions
      cases hmentions with
      | item hitem hmentions => exact hitems _ hitem other object hmentions
    | cons second others =>
      rw [Fields.follow?, hnode] at hfollow
      · cases node with
        | nested inner => exact ih (hproper.field _ hfield) hfollow
        | _ => cases hfollow
      · rintro ⟨⟩

/-- The declaration behind the path of a list. -/
theorem Tree.node_of_element {tree : Tree} {path : String} {element : Element}
    (helement : tree.element path = .ok element) :
    ∃ node, tree.fields.follow? (Text.splitAt '.' path) = some node ∧
      node.element? = some element := by
  unfold Tree.element Tree.at? at helement
  cases hsegments : Text.splitAt '.' path with
  | nil => rw [hsegments] at helement; cases helement
  | cons first rest =>
    rw [hsegments] at helement
    dsimp only at helement
    split_ifs at helement
    cases hnode : tree.fields.follow? (first :: rest) with
    | none => rw [hnode] at helement; cases helement
    | some node =>
      rw [hnode] at helement
      dsimp only [Option.map_some] at helement
      cases hitems : node.element? with
      | none => rw [hitems] at helement; cases helement
      | some found =>
        rw [hitems] at helement
        cases helement
        exact ⟨node, rfl, hitems⟩

/-- A list with items of a kind is declared by one form of node only. -/
theorem Tree.follow?_of_element {tree : Tree} {path : String} {element : Element}
    (helement : tree.element path = .ok element) (hany : element ≠ .any) :
    tree.fields.follow? (Text.splitAt '.' path) = some (.list element) := by
  obtain ⟨node, hfollow, hnode⟩ := Tree.node_of_element helement
  rw [hfollow]
  cases node with
  | list => cases hnode; rfl
  | array => cases hnode; exact absurd rfl hany
  | _ => cases hnode

/-- **A patch of a list** mentions what the items mention. -/
theorem Mentioned.patch {tree : Tree} {path : String} {items : List Value} (hproper : tree.Proper)
    (helement : tree.element path = .ok (.document target))
    (hitems : ∀ item ∈ items, Mentioned registry skip asked (.document target false) item) :
    Mentioned registry skip asked (.nested tree.fields) (Listing.patch path items) :=
  .behind hproper.fields hitems (Tree.follow?_of_element helement (by rintro ⟨⟩))

end Mentioning

end DocumentDb
