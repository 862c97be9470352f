import DocumentDb.Proofs.Schema.Declared
import Mathlib.Data.List.Find
import Mathlib.Data.List.Nodup

/-!
# Closed schemas

The compiler resolves the collections that declarations name before it compiles any schema. So the
schemas of a database are closed: every reference and every embedded document, at any depth, names a
collection of the database, and a reference has the kind of that collection's ids
(`Registry.compile_closed`). All that a schema depends on are the kinds of ids that the names stand
for, and so the order of the definitions does not matter (`Registry.compile_perm`).
-/

namespace DocumentDb

/-- **A node resolves**: the collection that it names is one of the database, with ids of the kind
that it says. -/
def Node.Resolves (registry : Registry) : Node → Prop
  | reference collection kind _ =>
    ∃ tree, registry.tree? collection = some tree ∧ tree.id.kind = kind
  | document collection _ => ∃ tree, registry.tree? collection = some tree
  | _ => True

/-- The nodes of fields resolve, at any depth. -/
def Fields.Closed (registry : Registry) (fields : Fields) : Prop :=
  ∀ field ∈ fields, field.2.Throughout (Node.Resolves registry)

/-- **The schemas of a database are closed.** -/
def Registry.Closed (registry : Registry) : Prop :=
  ∀ tree ∈ registry.trees, tree.fields.Closed registry

/-! ### Kinds of ids -/

namespace Declaration

variable {kinds : Kinds} {path collection : String} {options : Object}

theorem target_ok_iff {kind : IdKind} :
    target kinds path collection = .ok kind ↔ kinds.lookup collection = some kind := by
  unfold target
  cases kinds.lookup collection <;> simp [fault, pure, Except.pure]

theorem embedded_ok {required : Bool}
    (h : embedded kinds path options = .ok (collection, required)) :
    ∃ kind, kinds.lookup collection = some kind := by
  unfold embedded at h
  obtain ⟨_, _, h⟩ := bind_ok_iff.mp h
  split at h
  · obtain ⟨_, htarget, h⟩ := bind_ok_iff.mp h
    obtain ⟨_, _, h⟩ := bind_ok_iff.mp h
    cases h
    obtain ⟨kind, hkind, -⟩ := map_ok_iff.mp htarget
    exact ⟨kind, target_ok_iff.mp hkind⟩
  · cases h

theorem reference_ok {kind : IdKind} {required : Bool}
    (h : reference kinds path options = .ok (collection, kind, required)) :
    kinds.lookup collection = some kind := by
  unfold reference at h
  obtain ⟨_, _, h⟩ := bind_ok_iff.mp h
  split at h
  · next name _ =>
    have hlast : ∀ (found : String) (declared? : Option IdKind),
        (do
          let kind ← target kinds path found
          if declared?.getD kind ≠ kind then fault path (.refTypeDiffers found)
          pure (found, kind, ← flagOption path requiredKey options)) =
            .ok (collection, kind, required) → kinds.lookup collection = some kind := by
      intro found declared? h
      obtain ⟨known, htarget, h⟩ := bind_ok_iff.mp h
      dsimp only at h
      split_ifs at h
      · cases h
      · obtain ⟨_, _, h⟩ := bind_ok_iff.mp h
        cases h
        exact target_ok_iff.mp htarget
    dsimp only at h
    split at h
    · split at h
      · exact hlast _ _ h
      · cases h
    · cases h
    · exact hlast _ _ h
  · cases h

theorem tree_ok {settings : Settings} {declarations : Object} {result : Tree}
    (h : tree kinds collection settings declarations = .ok result) :
    result.collection = collection ∧ idOf declarations = .ok result.id := by
  obtain ⟨id, hid, h⟩ := bind_ok_iff.mp h
  obtain ⟨declared, _, h⟩ := bind_ok_iff.mp h
  cases h
  exact ⟨rfl, hid⟩

/-- What comes from a declaration resolves, if the kinds are those of the compiled schemas. -/
theorem resolves {registry : Registry} {node : Node} (h : node.Declared kinds)
    (hkinds : ∀ name, kinds.lookup name = (registry.tree? name).map (·.id.kind)) :
    node.Resolves registry := by
  cases h with
  | reference hreference =>
    have hkind := reference_ok hreference
    rw [hkinds] at hkind
    obtain ⟨tree, htree, hid⟩ := Option.map_eq_some_iff.mp hkind
    exact ⟨tree, htree, hid⟩
  | document hembedded =>
    obtain ⟨kind, hkind⟩ := embedded_ok hembedded
    rw [hkinds] at hkind
    obtain ⟨tree, htree, -⟩ := Option.map_eq_some_iff.mp hkind
    exact ⟨tree, htree⟩
  | scalar => trivial
  | array => trivial
  | list => trivial
  | nested => trivial

end Declaration

namespace Registry

variable {shardMax : Nat} {definitions others : List Definition} {registry : Registry}

/-- Compile the schema of a definition. -/
def compileTree (kinds : Declaration.Kinds) (definition : Definition) : Except Error Tree :=
  Declaration.tree kinds definition.collection definition.settings definition.declarations

theorem compile_ok_iff : Registry.compile shardMax definitions = .ok registry ↔
    ∃ kinds trees, Registry.kinds definitions = .ok kinds ∧
      definitions.mapM (compileTree kinds) = .ok trees ∧ { shardMax, trees } = registry := by
  unfold Registry.compile
  rw [bind_ok_iff]
  refine exists_congr fun kinds => ?_
  rw [bind_ok_iff]
  simp only [pure, Except.pure, Except.ok.injEq]
  exact ⟨fun ⟨hkinds, trees, htrees, h⟩ => ⟨trees, hkinds, htrees, h⟩,
    fun ⟨trees, hkinds, htrees, h⟩ => ⟨hkinds, trees, htrees, h⟩⟩

/-- The first pass and the second one agree on the kinds of ids. -/
theorem lookup_kinds {kinds known : Declaration.Kinds} {trees : List Tree}
    (hkinds : Registry.kinds definitions = .ok kinds)
    (htrees : definitions.mapM (compileTree known) = .ok trees) (name : String) :
    kinds.lookup name = (trees.find? (·.collection == name)).map (·.id.kind) := by
  induction definitions generalizing kinds trees with
  | nil =>
    cases hkinds
    cases htrees
    rfl
  | cons definition rest ih =>
    obtain ⟨rule, hrule, hkinds⟩ := bind_ok_iff.mp hkinds
    obtain ⟨kindsRest, hkindsRest, hkinds⟩ := bind_ok_iff.mp hkinds
    cases hkinds
    rw [List.mapM_cons] at htrees
    obtain ⟨first, hfirst, htrees⟩ := bind_ok_iff.mp htrees
    obtain ⟨treesRest, htreesRest, htrees⟩ := bind_ok_iff.mp htrees
    cases htrees
    obtain ⟨hcollection, hid⟩ := Declaration.tree_ok hfirst
    rw [hrule] at hid
    cases hid
    rw [List.lookup_cons, List.find?_cons, hcollection, ih hkindsRest htreesRest]
    by_cases hname : name = definition.collection
    · simp [hname]
    · rw [beq_eq_false_iff_ne.mpr hname, beq_eq_false_iff_ne.mpr (Ne.symm hname)]

/-- **Compiled schemas are closed.** -/
theorem compile_closed (h : Registry.compile shardMax definitions = .ok registry) :
    registry.Closed := by
  obtain ⟨kinds, trees, hkinds, htrees, rfl⟩ := compile_ok_iff.mp h
  intro tree hin field hfield
  obtain ⟨definition, -, htree⟩ := exists_of_mem_mapM htrees hin
  exact (Declaration.tree_declared htree field hfield).mono fun node hnode =>
    Declaration.resolves hnode (lookup_kinds hkinds htrees)

theorem Closed.tree? (h : registry.Closed) {collection : String} {tree : Tree}
    (htree : registry.tree? collection = some tree) : tree.fields.Closed registry :=
  h tree (List.mem_of_find?_eq_some htree)

end Registry

/-! ### The order of definitions -/

/-- Steps that depend on no state may be taken in any order. -/
theorem mapM_perm {α β : Type} {f : α → Except Error β} {list other : List α} {results : List β}
    (hperm : list.Perm other) (h : list.mapM f = .ok results) :
    ∃ same, other.mapM f = .ok same ∧ same.Perm results := by
  induction hperm generalizing results with
  | nil => exact ⟨results, h, .refl _⟩
  | cons a _ ih =>
    rw [List.mapM_cons] at h
    obtain ⟨first, hfirst, h⟩ := bind_ok_iff.mp h
    obtain ⟨rest, hrest, h⟩ := bind_ok_iff.mp h
    cases h
    obtain ⟨same, hsame, hperm⟩ := ih hrest
    exact ⟨first :: same, by rw [List.mapM_cons, hfirst, hsame]; rfl, hperm.cons first⟩
  | swap a b list =>
    rw [List.mapM_cons] at h
    obtain ⟨first, hfirst, h⟩ := bind_ok_iff.mp h
    obtain ⟨more, hmore, h⟩ := bind_ok_iff.mp h
    cases h
    rw [List.mapM_cons] at hmore
    obtain ⟨second, hsecond, hmore⟩ := bind_ok_iff.mp hmore
    obtain ⟨rest, hrest, hmore⟩ := bind_ok_iff.mp hmore
    cases hmore
    refine ⟨second :: first :: rest, ?_, .swap _ _ _⟩
    rw [List.mapM_cons, List.mapM_cons, hfirst, hsecond, hrest]
    rfl
  | trans _ _ ih ih' =>
    obtain ⟨middle, hmiddle, hperm⟩ := ih h
    obtain ⟨same, hsame, hperm'⟩ := ih' hmiddle
    exact ⟨same, hsame, hperm'.trans hperm⟩

/-- Where names occur once, the order does not matter for what is found under a name. -/
theorem find?_perm {α : Type} {name? : α → String} {list other : List α}
    (hperm : list.Perm other) (honce : (list.map name?).Nodup) (name : String) :
    list.find? (name? · == name) = other.find? (name? · == name) := by
  refine List.find?_eq_find?_of_perm hperm fun a ha b hb => ?_
  exact List.inj_on_of_nodup_map honce ha.1 hb.1 ((eq_of_beq ha.2).trans (eq_of_beq hb.2).symm)

namespace Declaration

variable {kinds other : Kinds}

theorem embedded_congr (h : target kinds = target other) : embedded kinds = embedded other := by
  funext path options
  unfold embedded
  rw [h]

theorem reference_congr (h : target kinds = target other) : reference kinds = reference other := by
  funext path options
  unfold reference
  rw [h]

mutual

/-- A node depends on the kinds of ids that its targets have, and on nothing else. -/
theorem node_congr (h : target kinds = target other) (path : String) (depth : Nat)
    (declaration : Value) :
    node kinds path depth declaration = node other path depth declaration := by
  match declaration with
  | .string name => rw [node, node]
  | .array [] => rw [node, node]
  | .array (item :: rest) =>
    rw [node, node, elements_congr h path (depth + 1) (item :: rest)]
    all_goals intro hnil; cases hnil
  | .object options =>
    rw [node, node, embedded_congr h, reference_congr h, fields_congr h path depth options]
  | .null => rw [node, node] <;> simp
  | .bool _ => rw [node, node] <;> simp
  | .number _ => rw [node, node] <;> simp

theorem fields_congr (h : target kinds = target other) (path : String) (depth : Nat)
    (declarations : List (String × Value)) :
    fields kinds path depth declarations = fields other path depth declarations := by
  match declarations with
  | [] => rw [fields, fields]
  | (name, declaration) :: rest =>
    rw [fields, fields, node_congr h _ depth declaration, fields_congr h path depth rest]

theorem elements_congr (h : target kinds = target other) (path : String) (depth : Nat)
    (items : List Value) :
    elements kinds path depth items = elements other path depth items := by
  match items with
  | [] => rw [elements, elements]
  | [item] => rw [elements, elements, element_congr h path depth item]
  | _ :: _ :: _ => simp [elements]

theorem element_congr (h : target kinds = target other) (path : String) (depth : Nat)
    (declaration : Value) :
    element kinds path depth declaration = element other path depth declaration := by
  match declaration with
  | .string name => rw [element, element]
  | .array inner => rw [element, element, elements_congr h path (depth + 1) inner]
  | .object options =>
    rw [element, element, embedded_congr h, reference_congr h, fields_congr h path depth options]
  | .null => rw [element, element] <;> simp
  | .bool _ => rw [element, element] <;> simp
  | .number _ => rw [element, element] <;> simp

end

theorem topFields_congr (h : target kinds = target other) (declarations : Object) :
    topFields kinds declarations = topFields other declarations := by
  induction declarations with
  | nil => rfl
  | cons field rest ih =>
    obtain ⟨name, declaration⟩ := field
    simp only [topFields, node_congr h, ih]

end Declaration

namespace Registry

variable {shardMax : Nat} {definitions others : List Definition} {registry : Registry}

/-- The name of a definition and the kind of its ids. -/
def kindOf (definition : Definition) : Except Error (String × IdKind) := do
  let rule ← Declaration.idOf definition.declarations
  pure (definition.collection, rule.kind)

theorem kinds_eq : Registry.kinds definitions = definitions.mapM kindOf := by
  induction definitions with
  | nil => rfl
  | cons definition rest ih =>
    rw [kinds, ih, List.mapM_cons, kindOf]
    simp only [bind_assoc, pure_bind]

theorem names_of_compiled {kinds : Declaration.Kinds} {trees : List Tree}
    (h : definitions.mapM (compileTree kinds) = .ok trees) :
    trees.map (·.collection) = definitions.map (·.collection) := by
  induction definitions generalizing trees with
  | nil =>
    cases h
    rfl
  | cons definition rest ih =>
    rw [List.mapM_cons] at h
    obtain ⟨first, hfirst, h⟩ := bind_ok_iff.mp h
    obtain ⟨more, hmore, h⟩ := bind_ok_iff.mp h
    cases h
    rw [List.map_cons, List.map_cons, ih hmore, (Declaration.tree_ok hfirst).1]

/-- **The order of definitions does not matter** for what is compiled. -/
theorem compile_perm (h : Registry.compile shardMax definitions = .ok registry)
    (honce : (definitions.map (·.collection)).Nodup) (hperm : definitions.Perm others) :
    ∃ same, Registry.compile shardMax others = .ok same ∧ same.shardMax = registry.shardMax ∧
      same.trees.Perm registry.trees ∧ ∀ name, same.tree? name = registry.tree? name := by
  obtain ⟨kinds, trees, hkinds, htrees, rfl⟩ := compile_ok_iff.mp h
  obtain ⟨kinds', hkinds', -⟩ := mapM_perm hperm (kinds_eq ▸ hkinds)
  obtain ⟨same, hsame, hsamePerm⟩ := mapM_perm hperm htrees
  have hfound : ∀ name, same.find? (·.collection == name) = trees.find? (·.collection == name) := by
    refine find?_perm hsamePerm ?_
    rw [(hsamePerm.map _).nodup_iff, names_of_compiled htrees]
    exact honce
  have htarget : Declaration.target kinds' = Declaration.target kinds := by
    funext path name
    unfold Declaration.target
    rw [lookup_kinds (kinds_eq.trans hkinds') hsame, lookup_kinds hkinds htrees, hfound]
  have hcompile : compileTree kinds' = compileTree kinds := by
    funext definition
    unfold compileTree Declaration.tree
    rw [Declaration.topFields_congr htarget]
  refine ⟨{ shardMax, trees := same }, compile_ok_iff.mpr ⟨kinds', same, ?_, ?_, rfl⟩, rfl,
    hsamePerm, hfound⟩
  · rw [kinds_eq, hkinds']
  · rw [hcompile, hsame]

end Registry

/-! ### The id -/

theorem Declaration.topFields_noId {kinds : Kinds} {declarations : Object} {result : Fields}
    (h : topFields kinds declarations = .ok result) : idKey ∉ result.names := by
  induction declarations generalizing result with
  | nil =>
    cases h
    exact List.not_mem_nil
  | cons field rest ih =>
    obtain ⟨name, declaration⟩ := field
    rw [topFields] at h
    split_ifs at h with hname
    · exact ih h
    · obtain ⟨first, _, h⟩ := bind_ok_iff.mp h
      obtain ⟨others, hothers, h⟩ := bind_ok_iff.mp h
      cases h
      exact List.not_mem_cons_of_ne_of_not_mem (Ne.symm hname) (ih hothers)

/-- No compiled schema declares a field with the key of the id. -/
theorem Registry.compile_noId {shardMax : Nat} {definitions : List Definition}
    {registry : Registry} (h : Registry.compile shardMax definitions = .ok registry) :
    ∀ tree ∈ registry.trees, idKey ∉ tree.fields.names := by
  obtain ⟨kinds, trees, -, htrees, rfl⟩ := compile_ok_iff.mp h
  intro tree hin
  obtain ⟨definition, -, htree⟩ := exists_of_mem_mapM htrees hin
  obtain ⟨_, _, htree⟩ := bind_ok_iff.mp htree
  obtain ⟨declared, hdeclared, htree⟩ := bind_ok_iff.mp htree
  cases htree
  exact Declaration.topFields_noId hdeclared

theorem splitAt_eq_singleton {path name : String} (h : Text.splitAt '.' path = [name]) :
    path = name := by
  have hjoined : ['.'].intercalate (path.toList.splitOn '.') = path.toList :=
    List.intercalate_splitOn '.'
  obtain ⟨piece, hpiece, hname⟩ := List.map_eq_singleton_iff.mp h
  rw [hpiece] at hjoined
  rw [← hname, ← String.ofList_toList (s := path), ← hjoined]
  simp [List.intercalate]

/-- **The id is the only field of its kind**: no other path leads to an id. -/
theorem Tree.at?_id_iff {tree : Tree} {path : String} {rule : IdRule} :
    tree.at? path = some (.id rule) ↔ path = idKey ∧ rule = tree.id := by
  constructor
  · intro h
    unfold Tree.at? at h
    split at h
    · next first rest hpath =>
      split_ifs at h with hfirst hrest
      · cases h
        rw [List.isEmpty_iff] at hrest
        rw [hrest, hfirst] at hpath
        exact ⟨splitAt_eq_singleton hpath, rfl⟩
      · cases hfollow : tree.fields.follow? (first :: rest) <;> rw [hfollow] at h <;> cases h
    · cases h
  · rintro ⟨rfl, rfl⟩
    rfl

end DocumentDb
