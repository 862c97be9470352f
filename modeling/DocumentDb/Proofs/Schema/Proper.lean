import DocumentDb.Proofs.Json.Objects
import DocumentDb.Proofs.Outcome
import DocumentDb.Schema.Registry

/-!
# Proper schemas

What compiling makes sure of. A node is *proper* if each object in it declares a name once, and a
schema is if it declares no field with the key of the id and its ids have sensible bounds. Schemas
that are compiled from declarations with distinct keys are proper.

`Element.asNode` reads the items of a list as the values of a field that is not required, so that
whatever is said about values of nodes need not be said again for items.
-/

namespace DocumentDb

/-- The node of a field that holds what an item of a list holds. -/
def Element.asNode : Element → Node
  | any => .scalar .any {}
  | scalar kind rules => .scalar kind rules
  | reference collection kind => .reference collection kind false
  | document collection => .document collection false
  | object fields => .nested fields
  | list inner => .list inner

/-- The names of declared fields. -/
def Fields.names (fields : Fields) : List String := fields.map (·.1)

/-- Every object of a node declares each of its names once. -/
inductive Node.Proper : Node → Prop
  | scalar {kind : ScalarKind} {rules : Rules} : Proper (.scalar kind rules)
  | reference {collection : String} {kind : IdKind} {required : Bool} :
    Proper (.reference collection kind required)
  | array {rules : Rules} : Proper (.array rules)
  | document {collection : String} {required : Bool} : Proper (.document collection required)
  | list {element : Element} (h : Proper element.asNode) : Proper (.list element)
  | nested {fields : Fields} (hnames : fields.names.Nodup)
    (h : ∀ field ∈ fields, Proper field.2) : Proper (.nested fields)

theorem Node.Proper.element {element : Element} (h : (Node.list element).Proper) :
    element.asNode.Proper := by
  cases h with
  | list h => exact h

theorem Node.Proper.names {fields : Fields} (h : (Node.nested fields).Proper) :
    fields.names.Nodup := by
  cases h with
  | nested hnames _ => exact hnames

theorem Node.Proper.field {fields : Fields} (h : (Node.nested fields).Proper) :
    ∀ field ∈ fields, field.2.Proper := by
  cases h with
  | nested _ h => exact h

namespace Fields

theorem mem_of_node? {fields : Fields} {name : String} {node : Node}
    (h : fields.node? name = some node) : (name, node) ∈ fields := by
  induction fields with
  | nil => cases h
  | cons field rest ih =>
    obtain ⟨key, first⟩ := field
    simp only [Fields.node?] at h
    split_ifs at h with hkey
    · cases h; rw [hkey]; exact List.mem_cons_self
    · exact List.mem_cons_of_mem _ (ih h)

theorem declares_iff {fields : Fields} {name : String} :
    fields.declares name = true ↔ name ∈ fields.names := by
  unfold Fields.declares Fields.names
  induction fields with
  | nil => simp [Fields.node?]
  | cons field rest ih =>
    obtain ⟨key, first⟩ := field
    simp only [Fields.node?, List.map_cons, List.mem_cons]
    split_ifs with hkey
    · simp [hkey]
    · rw [ih]
      simp [Ne.symm hkey]

/-- Where a name is declared once, its declaration is the one that is found. -/
theorem node?_of_mem {fields : Fields} {name : String} {node : Node} (hnodup : fields.names.Nodup)
    (h : (name, node) ∈ fields) : fields.node? name = some node := by
  induction fields with
  | nil => cases h
  | cons field rest ih =>
    obtain ⟨key, first⟩ := field
    simp only [Fields.names, List.map_cons, List.nodup_cons] at hnodup ih
    simp only [Fields.node?]
    rcases List.mem_cons.mp h with heq | hrest
    · cases heq; rw [if_pos rfl]
    · have hne : key ≠ name := by
        rintro rfl
        exact hnodup.1 (List.mem_map_of_mem hrest)
      rw [if_neg hne]
      exact ih hnodup.2 hrest

end Fields

/-- Texts as ids have at least one character, and some length is allowed. -/
def IdRule.Proper : IdRule → Prop
  | incr _ => True
  | uid least most => 0 < least ∧ least ≤ most

/-- The schema of a collection is proper. -/
structure Tree.Proper (tree : Tree) : Prop where
  id : tree.id.Proper
  fields : (Node.nested tree.fields).Proper
  noId : idKey ∉ tree.fields.names

/-- All schemas of a database are proper. -/
def Registry.Proper (registry : Registry) : Prop := ∀ tree ∈ registry.trees, tree.Proper

namespace Registry

variable {registry : Registry} {collection : String} {tree : Tree}

theorem tree?_collection (h : registry.tree? collection = some tree) :
    tree.collection = collection := by
  simpa using List.find?_some h

theorem Proper.tree? (h : registry.Proper) (htree : registry.tree? collection = some tree) :
    tree.Proper :=
  h tree (List.mem_of_find?_eq_some htree)

theorem tree_ok_iff :
    registry.tree collection = .ok tree ↔ registry.tree? collection = some tree := by
  unfold Registry.tree
  cases registry.tree? collection <;> simp

end Registry

/-! ### Compiled schemas are proper -/

namespace Declaration

variable {kinds : Kinds} {name : String}

theorem typed_proper {path : String} {options : Object} {node : Node}
    (h : typed path name options = .ok node) :
    node.Proper := by
  unfold typed at h
  split at h
  · cases h
  · cases h
  · cases h
  · obtain ⟨rules, _, rfl⟩ := map_ok_iff.mp h
    exact .array
  · obtain ⟨rules, _, rfl⟩ := map_ok_iff.mp h
    exact .scalar

theorem namedElement_proper {path : String} {element : Element}
    (h : namedElement path name = .ok element) : element.asNode.Proper := by
  unfold namedElement at h
  split at h
  · cases h; exact .scalar
  · cases h; exact .list .scalar
  · cases h
  · cases h

theorem typedElement_proper {path : String} {options : Object} {element : Element}
    (h : typedElement path name options = .ok element) : element.asNode.Proper := by
  unfold typedElement at h
  split at h
  · obtain ⟨rules, _, rfl⟩ := map_ok_iff.mp h
    exact .scalar
  · cases h

mutual

theorem node_proper {path : String} {depth : Nat} {declaration : Value} {result : Node}
    (h : node kinds path depth declaration = .ok result) (hkeys : declaration.KeysOnce) :
    result.Proper := by
  match declaration with
  | .string name => exact typed_proper (by rwa [node] at h)
  | .array [] => rw [node] at h; cases h; exact .array
  | .array (item :: rest) =>
    rw [node] at h
    · obtain ⟨element, helement, rfl⟩ := map_ok_iff.mp h
      exact .list (elements_proper helement hkeys.item)
    · intro hnil; cases hnil
  | .object options =>
    rw [node] at h
    split_ifs at h
    · obtain ⟨_, _, h⟩ := bind_ok_iff.mp h
      obtain ⟨_, _, h⟩ := bind_ok_iff.mp h
      cases h
      exact .document
    · obtain ⟨_, _, h⟩ := bind_ok_iff.mp h
      obtain ⟨_, _, h⟩ := bind_ok_iff.mp h
      cases h
      exact .reference
    · split at h
      · exact typed_proper h
      · obtain ⟨declared, hdeclared, rfl⟩ := map_ok_iff.mp h
        obtain ⟨hnames, hproper⟩ := fields_proper hdeclared hkeys.field
        exact .nested (by rw [hnames]; exact hkeys.keys) hproper
      · obtain ⟨declared, hdeclared, rfl⟩ := map_ok_iff.mp h
        obtain ⟨hnames, hproper⟩ := fields_proper hdeclared hkeys.field
        exact .nested (by rw [hnames]; exact hkeys.keys) hproper
      · cases h
  | .null => simp [node, fault] at h
  | .bool _ => simp [node, fault] at h
  | .number _ => simp [node, fault] at h

theorem fields_proper {path : String} {depth : Nat} {declarations : List (String × Value)}
    {result : Fields} (h : fields kinds path depth declarations = .ok result)
    (hkeys : ∀ field ∈ declarations, field.2.KeysOnce) :
    result.names = declarations.map (·.1) ∧ ∀ field ∈ result, field.2.Proper := by
  match declarations with
  | [] => rw [fields] at h; cases h; exact ⟨rfl, by simp⟩
  | (name, declaration) :: rest =>
    rw [fields] at h
    obtain ⟨first, hfirst, h⟩ := bind_ok_iff.mp h
    obtain ⟨others, hothers, h⟩ := bind_ok_iff.mp h
    cases h
    have hproper := node_proper hfirst (hkeys _ List.mem_cons_self)
    obtain ⟨hnames, hrest⟩ :=
      fields_proper hothers fun field hfield => hkeys field (List.mem_cons_of_mem _ hfield)
    refine ⟨by simpa [Fields.names] using hnames, ?_⟩
    intro field hfield
    rcases List.mem_cons.mp hfield with rfl | hin
    · exact hproper
    · exact hrest field hin

theorem elements_proper {path : String} {depth : Nat} {items : List Value} {result : Element}
    (h : elements kinds path depth items = .ok result) (hkeys : ∀ item ∈ items, item.KeysOnce) :
    result.asNode.Proper := by
  match items with
  | [] => rw [elements] at h; cases h; exact .scalar
  | [item] => rw [elements] at h; exact element_proper h (hkeys item List.mem_cons_self)
  | _ :: _ :: _ => simp [elements, fault] at h

theorem element_proper {path : String} {depth : Nat} {declaration : Value} {result : Element}
    (h : element kinds path depth declaration = .ok result) (hkeys : declaration.KeysOnce) :
    result.asNode.Proper := by
  match declaration with
  | .string name => exact namedElement_proper (by rwa [element] at h)
  | .array inner =>
    rw [element] at h
    obtain ⟨inside, hinside, rfl⟩ := map_ok_iff.mp h
    exact .list (elements_proper hinside hkeys.item)
  | .object options =>
    rw [element] at h
    split_ifs at h
    · obtain ⟨_, _, h⟩ := bind_ok_iff.mp h
      obtain ⟨_, _, h⟩ := bind_ok_iff.mp h
      cases h
      exact .reference
    · obtain ⟨_, _, h⟩ := bind_ok_iff.mp h
      obtain ⟨_, _, h⟩ := bind_ok_iff.mp h
      cases h
      exact .document
    · split at h
      · exact typedElement_proper h
      · obtain ⟨declared, hdeclared, rfl⟩ := map_ok_iff.mp h
        obtain ⟨hnames, hproper⟩ := fields_proper hdeclared hkeys.field
        exact .nested (by rw [hnames]; exact hkeys.keys) hproper
  | .null => simp [element, fault] at h
  | .bool _ => simp [element, fault] at h
  | .number _ => simp [element, fault] at h

end

theorem topFields_proper {declarations : Object} {result : Fields}
    (h : topFields kinds declarations = .ok result)
    (hkeys : ∀ field ∈ declarations, field.2.KeysOnce) :
    result.names = (declarations.map (·.1)).filter (· ≠ idKey) ∧
      ∀ field ∈ result, field.2.Proper := by
  induction declarations generalizing result with
  | nil => cases h; exact ⟨rfl, by simp⟩
  | cons field rest ih =>
    obtain ⟨name, declaration⟩ := field
    have hrest : ∀ field ∈ rest, field.2.KeysOnce := fun field hfield =>
      hkeys field (List.mem_cons_of_mem _ hfield)
    simp only [topFields] at h
    split_ifs at h with hname
    · obtain ⟨hnames, hproper⟩ := ih h hrest
      exact ⟨by simpa [hname] using hnames, hproper⟩
    · obtain ⟨first, hfirst, h⟩ := bind_ok_iff.mp h
      obtain ⟨others, hothers, h⟩ := bind_ok_iff.mp h
      cases h
      obtain ⟨hnames, hproper⟩ := ih hothers hrest
      refine ⟨by simpa [Fields.names, hname] using hnames, ?_⟩
      intro field hfield
      rcases List.mem_cons.mp hfield with rfl | hin
      · exact node_proper hfirst (hkeys _ List.mem_cons_self)
      · exact hproper field hin

theorem idRule_proper {options : Object} {rule : IdRule} (h : idRule name options = .ok rule) :
    rule.Proper := by
  unfold idRule at h
  split at h
  · obtain ⟨_, _, h⟩ := bind_ok_iff.mp h
    split at h
    · cases h; trivial
    · split at h
      · cases h; trivial
      · cases h
  · obtain ⟨_, _, h⟩ := bind_ok_iff.mp h
    obtain ⟨least, _, h⟩ := bind_ok_iff.mp h
    obtain ⟨most, _, h⟩ := bind_ok_iff.mp h
    dsimp only at h
    split_ifs at h with hcross
    · cases h
    · cases h
      simp only [Bool.or_eq_true, decide_eq_true_eq, not_or] at hcross
      exact ⟨by omega, by omega⟩
  · cases h

theorem idOf_proper {declarations : Object} {rule : IdRule} (h : idOf declarations = .ok rule) :
    rule.Proper := by
  unfold idOf at h
  split at h
  · unfold Declaration.id at h
    split at h
    · exact idRule_proper h
    · split at h
      · exact idRule_proper h
      · cases h
    · cases h
  · cases h; trivial

theorem tree_proper {collection : String} {settings : Settings} {declarations : Object}
    {result : Tree} (h : tree kinds collection settings declarations = .ok result)
    (hkeys : (Value.object declarations).KeysOnce) : result.Proper := by
  unfold tree at h
  obtain ⟨id, hid, h⟩ := bind_ok_iff.mp h
  obtain ⟨declared, hdeclared, h⟩ := bind_ok_iff.mp h
  cases h
  obtain ⟨hnames, hproper⟩ := topFields_proper hdeclared hkeys.field
  exact {
    id := idOf_proper hid
    fields := .nested (by rw [hnames]; exact hkeys.keys.filter _) hproper
    noId := by rw [hnames]; simp }

end Declaration

/-- **Compiled schemas are proper.** -/
theorem Registry.compile_proper {shardMax : Nat} {definitions : List Definition}
    {registry : Registry} (h : Registry.compile shardMax definitions = .ok registry)
    (hkeys : ∀ definition ∈ definitions, (Value.object definition.declarations).KeysOnce) :
    registry.Proper := by
  unfold Registry.compile at h
  obtain ⟨kinds, _, h⟩ := bind_ok_iff.mp h
  obtain ⟨trees, htrees, h⟩ := bind_ok_iff.mp h
  cases h
  clear * - htrees hkeys
  intro tree htree
  induction definitions generalizing trees with
  | nil => cases htrees; cases htree
  | cons definition rest ih =>
    rw [List.mapM_cons] at htrees
    obtain ⟨first, hfirst, htrees⟩ := bind_ok_iff.mp htrees
    obtain ⟨others, hothers, htrees⟩ := bind_ok_iff.mp htrees
    cases htrees
    rcases List.mem_cons.mp htree with rfl | hin
    · exact Declaration.tree_proper hfirst (hkeys definition List.mem_cons_self)
    · exact ih (fun definition h => hkeys definition (List.mem_cons_of_mem _ h)) others hothers hin

end DocumentDb
