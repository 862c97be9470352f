import DocumentDb.Proofs.Schema.Proper

/-!
# Where compiled nodes come from

A node consists of parts: itself, the nodes of its fields and the items of its lists. Whatever
declaration the compiler starts from, every part of what it yields comes from rules, a reference or
an embedded document that it has checked (`tree_declared`). So what these checks make sure of holds
at any depth of a schema.
-/

namespace DocumentDb

namespace Node

/-- **The parts of a node**, at any depth; items of lists count as fields. -/
inductive Within : Node → Node → Prop
  | self {node : Node} : Within node node
  | item {part : Node} {element : Element} (h : Within part element.asNode) :
    Within part (.list element)
  | field {part : Node} {fields : Fields} {field : String × Node} (hfield : field ∈ fields)
    (h : Within part field.2) : Within part (.nested fields)

/-- All parts of a node are as asked. -/
def Throughout (asked : Node → Prop) (node : Node) : Prop :=
  ∀ part : Node, part.Within node → asked part

section Throughout
variable {asked other : Node → Prop} {node : Node}

theorem Throughout.self (h : node.Throughout asked) : asked node := h node .self

theorem Throughout.mono (h : node.Throughout asked) (himplies : ∀ part, asked part → other part) :
    node.Throughout other :=
  fun part hpart => himplies part (h part hpart)

theorem Throughout.item {element : Element} (h : (Node.list element).Throughout asked) :
    element.asNode.Throughout asked :=
  fun part hpart => h part (.item hpart)

theorem Throughout.field {fields : Fields} (h : (Node.nested fields).Throughout asked) :
    ∀ field ∈ fields, field.2.Throughout asked :=
  fun _ hfield part hpart => h part (.field hfield hpart)

theorem throughout_list {element : Element} (hself : asked (.list element))
    (h : element.asNode.Throughout asked) : (Node.list element).Throughout asked := by
  intro part hpart
  cases hpart with
  | self => exact hself
  | item hpart => exact h part hpart

theorem throughout_nested {fields : Fields} (hself : asked (.nested fields))
    (h : ∀ field ∈ fields, field.2.Throughout asked) : (Node.nested fields).Throughout asked := by
  intro part hpart
  cases hpart with
  | self => exact hself
  | field hfield hpart => exact h _ hfield part hpart

theorem throughout_scalar {kind : ScalarKind} {rules : Rules} (hself : asked (.scalar kind rules)) :
    (Node.scalar kind rules).Throughout asked := by
  intro part hpart
  cases hpart
  exact hself

theorem throughout_array {rules : Rules} (hself : asked (.array rules)) :
    (Node.array rules).Throughout asked := by
  intro part hpart
  cases hpart
  exact hself

theorem throughout_reference {collection : String} {kind : IdKind} {required : Bool}
    (hself : asked (.reference collection kind required)) :
    (Node.reference collection kind required).Throughout asked := by
  intro part hpart
  cases hpart
  exact hself

theorem throughout_document {collection : String} {required : Bool}
    (hself : asked (.document collection required)) :
    (Node.document collection required).Throughout asked := by
  intro part hpart
  cases hpart
  exact hself

end Throughout

/-- **What a part of a compiled node comes from.** References and embedded documents in lists are
not required, whatever their declaration asks for. -/
inductive Declared (kinds : Declaration.Kinds) : Node → Prop
  | scalar {path : String} {kind : ScalarKind} {options : Object} {rules : Rules}
    (h : Declaration.rules path (.scalar kind) options = .ok rules) :
    Declared kinds (.scalar kind rules)
  | array {path : String} {options : Object} {rules : Rules}
    (h : Declaration.rules path .array options = .ok rules) : Declared kinds (.array rules)
  | reference {path collection : String} {options : Object} {kind : IdKind} {asked required : Bool}
    (h : Declaration.reference kinds path options = .ok (collection, kind, asked)) :
    Declared kinds (.reference collection kind required)
  | document {path collection : String} {options : Object} {asked required : Bool}
    (h : Declaration.embedded kinds path options = .ok (collection, asked)) :
    Declared kinds (.document collection required)
  | list {element : Element} : Declared kinds (.list element)
  | nested {fields : Fields} : Declared kinds (.nested fields)

end Node

namespace Declaration

variable {kinds : Kinds} {name : String}

/-- A type name without options gives no rules. -/
theorem rules_nil (path : String) (kind : ScalarKind) : rules path (.scalar kind) [] = .ok {} := by
  cases kind <;> rfl

theorem plain_declared (kind : ScalarKind) :
    (Node.scalar kind {}).Throughout (Node.Declared kinds) :=
  Node.throughout_scalar (.scalar (rules_nil "" kind))

theorem typed_declared {path : String} {options : Object} {result : Node}
    (h : typed path name options = .ok result) : result.Throughout (Node.Declared kinds) := by
  unfold typed at h
  split at h
  · cases h
  · cases h
  · cases h
  · obtain ⟨rules, hrules, rfl⟩ := map_ok_iff.mp h
    exact Node.throughout_array (.array hrules)
  · obtain ⟨rules, hrules, rfl⟩ := map_ok_iff.mp h
    exact Node.throughout_scalar (.scalar hrules)

theorem namedElement_declared {path : String} {result : Element}
    (h : namedElement path name = .ok result) :
    result.asNode.Throughout (Node.Declared kinds) := by
  unfold namedElement at h
  split at h
  · cases h
    exact plain_declared _
  · cases h
    exact Node.throughout_list .list (plain_declared _)
  · cases h
  · cases h

theorem typedElement_declared {path : String} {options : Object} {result : Element}
    (h : typedElement path name options = .ok result) :
    result.asNode.Throughout (Node.Declared kinds) := by
  unfold typedElement at h
  split at h
  · obtain ⟨rules, hrules, rfl⟩ := map_ok_iff.mp h
    exact Node.throughout_scalar (.scalar hrules)
  · cases h

mutual

theorem node_declared {path : String} {depth : Nat} {declaration : Value} {result : Node}
    (h : node kinds path depth declaration = .ok result) :
    result.Throughout (Node.Declared kinds) := by
  match declaration with
  | .string name => exact typed_declared (by rwa [node] at h)
  | .array [] =>
    rw [node] at h
    cases h
    exact Node.throughout_array (.array (show rules path .array [] = .ok {} from rfl))
  | .array (item :: rest) =>
    rw [node] at h
    · obtain ⟨element, helement, rfl⟩ := map_ok_iff.mp h
      exact Node.throughout_list .list (elements_declared helement)
    · intro hnil
      cases hnil
  | .object options =>
    rw [node] at h
    split_ifs at h
    · obtain ⟨_, _, h⟩ := bind_ok_iff.mp h
      obtain ⟨_, hembedded, h⟩ := bind_ok_iff.mp h
      cases h
      exact Node.throughout_document (.document hembedded)
    · obtain ⟨_, _, h⟩ := bind_ok_iff.mp h
      obtain ⟨_, hreference, h⟩ := bind_ok_iff.mp h
      cases h
      exact Node.throughout_reference (.reference hreference)
    · split at h
      · exact typed_declared h
      · obtain ⟨declared, hdeclared, rfl⟩ := map_ok_iff.mp h
        exact Node.throughout_nested .nested (fields_declared hdeclared)
      · obtain ⟨declared, hdeclared, rfl⟩ := map_ok_iff.mp h
        exact Node.throughout_nested .nested (fields_declared hdeclared)
      · cases h
  | .null => simp [node, fault] at h
  | .bool _ => simp [node, fault] at h
  | .number _ => simp [node, fault] at h

theorem fields_declared {path : String} {depth : Nat} {declarations : List (String × Value)}
    {result : Fields} (h : fields kinds path depth declarations = .ok result) :
    ∀ field ∈ result, field.2.Throughout (Node.Declared kinds) := by
  match declarations with
  | [] =>
    rw [fields] at h
    cases h
    simp
  | (name, declaration) :: rest =>
    rw [fields] at h
    obtain ⟨first, hfirst, h⟩ := bind_ok_iff.mp h
    obtain ⟨others, hothers, h⟩ := bind_ok_iff.mp h
    cases h
    exact List.forall_mem_cons.mpr ⟨node_declared hfirst, fields_declared hothers⟩

theorem elements_declared {path : String} {depth : Nat} {items : List Value} {result : Element}
    (h : elements kinds path depth items = .ok result) :
    result.asNode.Throughout (Node.Declared kinds) := by
  match items with
  | [] =>
    rw [elements] at h
    cases h
    exact plain_declared _
  | [item] =>
    rw [elements] at h
    exact element_declared h
  | _ :: _ :: _ => simp [elements, fault] at h

theorem element_declared {path : String} {depth : Nat} {declaration : Value} {result : Element}
    (h : element kinds path depth declaration = .ok result) :
    result.asNode.Throughout (Node.Declared kinds) := by
  match declaration with
  | .string name => exact namedElement_declared (by rwa [element] at h)
  | .array inner =>
    rw [element] at h
    obtain ⟨inside, hinside, rfl⟩ := map_ok_iff.mp h
    exact Node.throughout_list .list (elements_declared hinside)
  | .object options =>
    rw [element] at h
    split_ifs at h
    · obtain ⟨_, _, h⟩ := bind_ok_iff.mp h
      obtain ⟨_, hreference, h⟩ := bind_ok_iff.mp h
      cases h
      exact Node.throughout_reference (.reference hreference)
    · obtain ⟨_, _, h⟩ := bind_ok_iff.mp h
      obtain ⟨_, hembedded, h⟩ := bind_ok_iff.mp h
      cases h
      exact Node.throughout_document (.document hembedded)
    · split at h
      · exact typedElement_declared h
      · obtain ⟨declared, hdeclared, rfl⟩ := map_ok_iff.mp h
        exact Node.throughout_nested .nested (fields_declared hdeclared)
  | .null => simp [element, fault] at h
  | .bool _ => simp [element, fault] at h
  | .number _ => simp [element, fault] at h

end

theorem topFields_declared {declarations : Object} {result : Fields}
    (h : topFields kinds declarations = .ok result) :
    ∀ field ∈ result, field.2.Throughout (Node.Declared kinds) := by
  induction declarations generalizing result with
  | nil =>
    cases h
    simp
  | cons field rest ih =>
    obtain ⟨name, declaration⟩ := field
    simp only [topFields] at h
    split_ifs at h with hname
    · exact ih h
    · obtain ⟨first, hfirst, h⟩ := bind_ok_iff.mp h
      obtain ⟨others, hothers, h⟩ := bind_ok_iff.mp h
      cases h
      exact List.forall_mem_cons.mpr ⟨node_declared hfirst, ih hothers⟩

/-- **Every part of a compiled schema** comes from rules, a reference or an embedded document that
was checked. -/
theorem tree_declared {collection : String} {settings : Settings} {declarations : Object}
    {result : Tree} (h : tree kinds collection settings declarations = .ok result) :
    ∀ field ∈ result.fields, field.2.Throughout (Node.Declared kinds) := by
  unfold tree at h
  obtain ⟨id, _, h⟩ := bind_ok_iff.mp h
  obtain ⟨declared, hdeclared, h⟩ := bind_ok_iff.mp h
  cases h
  exact topFields_declared hdeclared

end Declaration

end DocumentDb
