import DocumentDb.Proofs.Document.KeyOrder
import DocumentDb.Proofs.Document.ReferenceLists
import DocumentDb.Proofs.Schema.Casts
import DocumentDb.Proofs.Schema.Declared

/-!
# Defaults

The compiler casts the default of a single value by the rules of its field, and building an absent
field does the same again; only the path in the errors differs. So such a default never fails where
it is needed. The default of an untyped list is not looked at before it is needed: it fails then
unless it is a list with a length and items that the rules allow (`default_built_iff`).
-/

namespace DocumentDb

/-- The default of a field. -/
def Node.fallback? : Node → Option Value
  | scalar _ rules => rules.fallback
  | array rules => rules.fallback
  | _ => none

/-- The value is a list with a length and items that the rules allow. -/
def Rules.AllowsList (rules : Rules) (value : Value) : Prop :=
  ∃ items, value = .array items ∧ rules.AllowsLength items.length ∧
    ∀ item ∈ items, rules.Lists item

/-! ### What the compiler checks -/

namespace Declaration

variable {path : String} {kind : ScalarKind} {options : Object} {result : Rules}

theorem rules_checked (h : rules path (.scalar kind) options = .ok result) :
    checkDeclared path kind result = .ok () := by
  unfold rules at h
  obtain ⟨given, _, h⟩ := bind_ok_iff.mp h
  have hlast : (do checkDeclared path kind given; pure given) = .ok result →
      checkDeclared path kind result = .ok () := by
    intro hlast
    obtain ⟨hchecked, hresult⟩ := bind_unit_ok_iff.mp hlast
    cases hresult
    exact hchecked
  dsimp only at h
  split_ifs at h
  · cases h
  · split at h
    · split_ifs at h
      · cases h
      · exact hlast h
    · exact hlast h

/-- **The default of a single value was cast** when its rules were compiled. -/
theorem rules_default (h : rules path (.scalar kind) options = .ok result) {value : Value}
    (hdefault : result.fallback = some value) : ∃ built, result.Casts kind value built := by
  have hchecked := rules_checked h
  unfold checkDeclared at hchecked
  rw [hdefault] at hchecked
  cases hlisted : result.listed.bind (misfit? kind) with
  | some misfit =>
    rw [hlisted] at hchecked
    cases hchecked
  | none =>
    rw [hlisted] at hchecked
    dsimp only at hchecked
    cases hcast : result.cast path kind value with
    | ok built => exact ⟨built, Rules.cast_ok_iff.mp hcast⟩
    | error cause =>
      rw [hcast] at hchecked
      cases hchecked

end Declaration

/-! ### What is built for absent fields -/

namespace Build

variable {context : Context} {work : Work} {path : String} {scope : Scope} {value : Value}

theorem lift_ok_iff {α : Type} {result : Except Error α} {a : α} :
    lift result context work = (.ok a, work) ↔ result = .ok a := by
  refine ⟨fun h => congrArg Prod.fst h, lift_of_ok⟩

/-- The default of a single value is built exactly if it can be cast. -/
theorem buildValue_default_scalar {kind : ScalarKind} {rules : Rules}
    (hdefault : rules.fallback = some value) :
    (∃ built, buildValue path (.scalar kind rules) none scope context work =
      (.ok (some built), work)) ↔ ∃ built, rules.Casts kind value built := by
  refine exists_congr fun built => ?_
  have hcast : rules.cast path kind value = .ok built ↔ rules.Casts kind value built :=
    Rules.cast_ok_iff
  rw [buildValue, lift_ok_iff, Rules.castField, hdefault]
  dsimp only
  rw [map_ok_iff, ← hcast]
  simp

/-- The default of an untyped list is built exactly if the rules allow it. -/
theorem buildValue_default_array {rules : Rules} (hdefault : rules.fallback = some value) :
    (∃ built, buildValue path (.array rules) none scope context work =
      (.ok (some built), work)) ↔ rules.AllowsList value := by
  have huntyped : buildValue path (.array rules) none scope =
      buildUntyped.check path rules value := by
    simp only [buildValue, buildUntyped, hdefault]
  rw [huntyped]
  constructor
  · rintro ⟨built, hbuilt⟩
    cases value with
    | array items =>
      cases hitems : rules.checkItems path items with
      | ok => exact ⟨items, rfl, Rules.checkItems_ok_iff.mp hitems⟩
      | error e =>
        simp only [buildUntyped.check, hitems] at hbuilt
        cases hbuilt
    | _ => cases hbuilt
  · rintro ⟨items, rfl, hitems⟩
    refine ⟨.array items, ?_⟩
    rw [buildUntyped.check, bind_of_ok (lift_of_ok (Rules.checkItems_ok_iff.mpr hitems))]
    rfl

end Build

/-- **Defaults of compiled fields** at any depth, where the field is absent: a single value is
always built, and a list is built exactly if the rules of the field allow it. -/
theorem default_built_iff {kinds : Declaration.Kinds} {collection : String} {settings : Settings}
    {declarations : Object} {tree : Tree}
    (htree : Declaration.tree kinds collection settings declarations = .ok tree)
    {field : String × Node} (hfield : field ∈ tree.fields) {node : Node}
    (hnode : node.Within field.2) {value : Value} (hdefault : node.fallback? = some value)
    {input : Object} {name : String} (habsent : Object.value? input name = none) (path : String)
    (scope : Scope) (context : Context) (work : Work) :
    (∃ built, Build.buildField path name node input scope context work =
      (.ok (some built), work)) ↔ ∀ rules, node = .array rules → rules.AllowsList value := by
  have hdeclared := Declaration.tree_declared htree field hfield node hnode
  have hvalue : injected? node scope = none → Build.buildField path name node input scope =
      Build.buildValue (joinPath path name) node none scope := by
    intro hplain
    rw [Build.buildField_eq_buildValue hplain, habsent]
  cases hdeclared with
  | scalar hrules =>
    have hdefault : _ = some value := hdefault
    rw [hvalue (by simp [injected?]), Build.buildValue_default_scalar hdefault]
    exact ⟨fun _ _ heq => Node.noConfusion heq, fun _ => Declaration.rules_default hrules hdefault⟩
  | array hrules =>
    have hdefault : _ = some value := hdefault
    rw [hvalue (by simp [injected?]), Build.buildValue_default_array hdefault]
    exact ⟨fun h rules heq => Node.array.inj heq ▸ h, fun h => h _ rfl⟩
  | reference => cases hdefault
  | document => cases hdefault
  | list => cases hdefault
  | nested => cases hdefault

/-! ### Notes with tags -/

/-- Notes that have two tags at most, with a default for these. -/
def noteDeclarations (tags : Value) : Object :=
  [("tags", .object [("type", .string "Array"), ("default", tags), ("maxLength", .ofNat 2)])]

/-- The rules of the tags of a note. -/
def tagRules (tags : Value) : Rules := { fallback := some tags, maxLength := some 2 }

/-- The compiled schema of notes. -/
def noteTree (tags : Value) : Tree where
  collection := "notes"
  id := .standard
  fields := [("tags", .array (tagRules tags))]
  settings := {}

theorem notes_compiled (tags : Value) :
    Declaration.tree [] "notes" {} (noteDeclarations tags) = .ok (noteTree tags) := rfl

/-- What is looked at while notes are built in an empty store. -/
def noteContext (tags : Value) : Context where
  registry := { shardMax := 1000, trees := [noteTree tags] }
  now := ⟨0, 0⟩
  source := IdSource.ofBytes .empty
  state := MemoryStore.backend.state { shardMax := 1000 }
  fetch := MemoryStore.backend.fetch { shardMax := 1000 }

/-- The scope of the fields of the first note. -/
def noteScope : Scope where
  strict := false
  owner := { collection := "notes", id := .number 1 }
  inject := none
  top := true

/-- One tag is a default that is built. -/
theorem oneTag_built :
    (tagRules (.array [.string "a"])).AllowsList (.array [.string "a"]) ∧
    ∃ built, Build.buildField "" "tags" (.array (tagRules (.array [.string "a"]))) [] noteScope
      (noteContext (.array [.string "a"])) {} = (.ok (some built), {}) := by
  have hallows : (tagRules (.array [.string "a"])).AllowsList (.array [.string "a"]) :=
    ⟨_, rfl, ⟨nofun, fun most hmost => by cases hmost; decide⟩, fun _ _ => nofun⟩
  refine ⟨hallows, (default_built_iff (notes_compiled (.array [.string "a"]))
    List.mem_cons_self .self rfl rfl "" noteScope (noteContext _) {}).mpr ?_⟩
  rintro _ ⟨⟩
  exact hallows

/-- **A default that is no list** is compiled, and then no note can be created without tags. -/
theorem fiveTags_fail :
    Declaration.tree [] "notes" {} (noteDeclarations (.ofNat 5)) = .ok (noteTree (.ofNat 5)) ∧
    (Build.create "notes" (.object []) (noteContext (.ofNat 5)) {}).1 =
      .error (.mismatch "tags" (.expected .array (.ofNat 5))) :=
  ⟨notes_compiled _, by cbv⟩

end DocumentDb
