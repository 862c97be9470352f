import DocumentDb.Proofs.Document.Defaults
import DocumentDb.Proofs.Document.Patching

/-!
# Rules of stored lists

The rules of an untyped list, on its length and on its items, hold for what is stored: a given list
is stored only if the rules allow it, and so is the default of an absent one, at the top level of a
document and inside nested objects, in new documents and in changed ones. A null is the one way
around the rules. It is stored as the empty list, whose length nobody looks at (`array_rules_hold`),
so the stored list may be one that cannot be written again (`cleared_tags_break`).
-/

namespace DocumentDb

/-- A list passes the rules, whatever the path of its field is. -/
def Rules.Passes (rules : Rules) (items : List Value) : Prop :=
  ∀ field, rules.checkItems field items = .ok ()

/-- **What is stored for a list**: the empty list for a null, and for anything else, absent values
included, a list that the rules allow. -/
def Rules.Stores (rules : Rules) (given stored : Option Value) : Prop :=
  ∀ value, stored = some value →
    (given = some .null ∧ value = .array []) ∨ (given ≠ some .null ∧ rules.AllowsList value)

section Rules
variable {rules : Rules} {items : List Value}

theorem Rules.passes_iff :
    rules.Passes items ↔ rules.AllowsLength items.length ∧ ∀ item ∈ items, rules.Lists item :=
  ⟨fun h => checkItems_ok_iff.mp (h ""), fun h _ => checkItems_ok_iff.mpr h⟩

theorem Rules.passes_nil_iff : rules.Passes [] ↔ rules.AllowsLength 0 :=
  passes_iff.trans (and_iff_left nofun)

theorem Rules.stores_none {given : Option Value} : rules.Stores given none := nofun

/-- A stored list passes the rules, unless it stands for a null and must not be empty. -/
theorem Rules.Stores.passes_iff {given stored : Option Value} {value : Value}
    (h : rules.Stores given stored) (hstored : stored = some value) :
    ∃ items, value = .array items ∧
      (rules.Passes items ↔ (given = some .null → rules.AllowsLength 0)) := by
  rcases h value hstored with ⟨hnull, rfl⟩ | ⟨hnull, items, rfl, hlength, hlists⟩
  · exact ⟨[], rfl, Rules.passes_nil_iff.trans ⟨fun h _ => h, fun h => h hnull⟩⟩
  · have hpasses : rules.Passes items := Rules.passes_iff.mpr ⟨hlength, hlists⟩
    exact ⟨items, rfl, fun _ hgiven => absurd hgiven hnull, fun _ => hpasses⟩

end Rules

namespace Build

variable {context : Context} {path : String} {scope : Scope} {rules : Rules}

theorem yields_logic : Logic fun {α} => Yields (α := α) context :=
  ⟨yields_pure, yields_lift, Yields.bind⟩

theorem buildUntyped_check_stores {given : Option Value} (hgiven : given ≠ some .null)
    (value : Value) :
    Yields context (buildUntyped.check path rules value) (rules.Stores given) := by
  unfold buildUntyped.check
  split
  · next items =>
    refine yields_lift.bind fun _ hchecked => yields_pure fun value hvalue => ?_
    obtain ⟨hlength, hlists⟩ := Rules.checkItems_ok_iff.mp hchecked
    cases hvalue
    exact .inr ⟨hgiven, items, rfl, hlength, hlists⟩
  · exact yields_fail

/-- **What is built for an untyped list.** -/
theorem buildArray_stores (value? : Option Value) :
    Yields context (buildValue path (.array rules) value? scope) (rules.Stores value?) := by
  simp only [buildValue]
  cases value? with
  | none =>
    cases hdefault : rules.fallback with
    | none =>
      simp only [buildUntyped, hdefault, absent]
      split_ifs
      · exact yields_fail
      · exact yields_pure Rules.stores_none
    | some value =>
      simp only [buildUntyped, hdefault]
      exact buildUntyped_check_stores (Option.some_ne_none _).symm value
  | some value =>
    by_cases hnull : value = .null
    · subst hnull
      refine yields_pure fun value hvalue => .inl ⟨rfl, ?_⟩
      exact (Option.some.inj hvalue).symm
    · have hchecked : buildUntyped path rules (some value) =
          buildUntyped.check path rules value := by
        cases value with
        | null => exact absurd rfl hnull
        | _ => rfl
      rw [hchecked]
      exact buildUntyped_check_stores (fun h => hnull (Option.some.inj h)) value

/-- A list that passes the rules is built as it is. -/
theorem buildArray_passes {items : List Value} (h : rules.Passes items) :
    buildValue path (.array rules) (some (.array items)) scope =
      pure (some (.array items)) := by
  simp only [buildValue, buildUntyped, buildUntyped.check, h path]
  rfl

end Build

/-- **What a patch supplies behind a path** is built for the field that is declared there. -/
theorem Patched.built_behind {built : Node → Value → Option Value → Prop} {fields : Fields}
    {patch target merged : Object} {reserved rest : List String} {name : String} {node : Node}
    {value : Value} (hpatched : ∀ key, Patched built (fields.node? key)
      (patch.supplied? reserved key) (Object.value? target key) (Object.value? merged key))
    (hname : name ∉ reserved) (hfollow : fields.follow? (name :: rest) = some node)
    (hplain : ∀ inner, node ≠ .nested inner)
    (hvalue : patch.follow? (name :: rest) = some value) :
    built node value (merged.follow? (name :: rest)) := by
  induction rest generalizing fields patch target merged reserved name with
  | nil =>
    have hkey := hpatched name
    have hfollow : fields.node? name = some node := hfollow
    have hvalue : Object.value? patch name = some value := hvalue
    rw [Object.supplied?, if_neg hname, hfollow, hvalue] at hkey
    show built node value (Object.value? merged name)
    generalize Object.value? merged name = after at hkey
    cases hkey with
    | leaf _ h => exact h
    | nested => exact absurd rfl (hplain _)
  | cons second rest ih =>
    obtain ⟨inner, hnode, hinner⟩ := Fields.follow?_cons hfollow
    have hkey := hpatched name
    rw [Object.follow?_fieldsOf] at hvalue ⊢
    rw [Object.supplied?, if_neg hname, hnode] at hkey
    generalize Object.value? merged name = after at hkey ⊢
    generalize hgiven : Object.value? patch name = given at hkey hvalue
    cases hkey with
    | kept =>
      rw [fieldsOf, Option.bind_none, Option.getD_none, Object.follow?_empty] at hvalue
      cases hvalue
    | leaf h => exact absurd rfl (h inner)
    | @nested _ deeper within _ hwithin =>
      simp only [← Object.supplied?_nil] at hwithin
      exact ih hwithin List.not_mem_nil hinner hvalue

/-! ### Documents -/

/-- **What stands in a document where a list is declared**: a list that passes the rules unless it
stands for a null, or a time that the document keeps itself under the key of the field. -/
def Rules.HoldFor (rules : Rules) (tree : Tree) (path : List String) (given : Option Value)
    (document : Document) : Prop :=
  ∀ value, document.follow? path = some value →
    (∃ items, value = .array items ∧
      (rules.Passes items ↔ (given = some .null → rules.AllowsLength 0))) ∨
    ∃ text key, key ∈ tree.managedKeys ∧ path = [key] ∧ value = .string text

section Documents
variable {context : Context} {collection path name : String} {tree : Tree} {rest : List String}
  {rules : Rules}

/-- Behind a text there is nothing. -/
theorem Rules.holdFor_time {given : Option Value} {document : Document}
    (hname : name ∈ tree.managedKeys)
    (htime : ∀ value, Object.value? document name = some value → ∃ text, value = .string text) :
    rules.HoldFor tree (name :: rest) given document := by
  intro value hvalue
  cases rest with
  | nil =>
    obtain ⟨text, htext⟩ := htime value hvalue
    exact .inr ⟨text, name, hname, rfl, htext⟩
  | cons second rest =>
    have hnested : ∀ inner, Object.value? document name ≠ some (.object inner) := by
      intro inner hinner
      obtain ⟨text, htext⟩ := htime _ hinner
      cases htext
    rw [Object.follow?_eq_none hnested] at hvalue
    cases hvalue

variable (htree : context.registry.tree? collection = some tree) (hproper : tree.Proper)
  (hfollow : tree.fields.follow? (name :: rest) = some (.array rules))
include htree hproper hfollow

omit htree in
/-- A declared key that a document keeps itself is one of a time. -/
theorem ne_idKey_of_follow? : name ≠ idKey := by
  have hnode : ∃ node, tree.fields.node? name = some node := by
    cases rest with
    | nil => exact ⟨_, hfollow⟩
    | cons second rest =>
      obtain ⟨inner, hnode, -⟩ := Fields.follow?_cons hfollow
      exact ⟨_, hnode⟩
  obtain ⟨node, hnode⟩ := hnode
  rintro rfl
  exact hproper.noId (List.mem_map_of_mem (Fields.mem_of_node? hnode))

/-- **The rules hold in new documents.** -/
theorem insertDocument_rules (input : Object) (inject : Option Owner) :
    Build.Yields context (Build.insertDocument path collection input inject)
      (rules.HoldFor tree (name :: rest) (input.follow? (name :: rest))) := by
  rw [Build.insertDocument]
  refine (Build.tree_yields htree).bind fun found hfound => ?_
  obtain rfl : tree = found := hfound.symm
  refine Build.yields_any.bind fun id _ => ?_
  refine (Build.yields_logic.buildFields_follow (P := rules.Stores) Build.yields_any
    (fun _ => rfl) (fun _ value? _ => Build.buildArray_stores value?) hproper.fields
    hfollow).bind fun fields hfields => ?_
  refine Build.yields_any.bind fun own _ => Build.yields_any.bind fun _ _ => Build.yields_pure ?_
  by_cases hname : name ∈ tree.managedKeys
  · refine Rules.holdFor_time hname fun value hvalue => ?_
    rw [value?_stampNew_time own.now hname (ne_idKey_of_follow? hproper hfollow)] at hvalue
    exact ⟨_, (Option.some.inj hvalue).symm⟩
  · intro value hvalue
    rw [Object.follow?_congr (value?_new hname own.now id fields)] at hvalue
    exact .inl (hfields.passes_iff hvalue)

/-- **The rules hold for what a patch supplies.** -/
theorem updateDocument_rules {existing : Document} {patch : Object}
    (hpatch : (Value.object patch).KeysOnce) {given : Value}
    (hgiven : patch.follow? (name :: rest) = some given)
    (htimes : ∀ key ∈ tree.managedKeys, key ≠ idKey → ∀ value,
      Object.value? existing key = some value → ∃ text, value = .string text) :
    Build.Yields context (Build.updateDocument path collection existing patch)
      (rules.HoldFor tree (name :: rest) (some given)) := by
  refine (Build.updateDocument_patched
    (fun node value built => node = .array rules → rules.Stores (some value) built) htree hproper
    hpatch fun id _ node _ _ path value scope _ => ?_).mono ?_
  · by_cases hnode : node = .array rules
    · subst hnode
      exact (Build.buildArray_stores (some value)).mono fun _ h _ => h
    · exact Build.yields_any.mono fun _ _ h => absurd h hnode
  rintro _ ⟨id, merged, now, -, -, rfl, hpatched, -⟩
  by_cases hname : name ∈ tree.managedKeys
  · refine Rules.holdFor_time hname fun value hvalue => ?_
    have hkept := hpatched name
    rw [Object.supplied?, if_pos hname] at hkept
    rw [Tree.value?_order, value?_stampChanged] at hvalue
    split_ifs at hvalue
    · exact ⟨_, (Option.some.inj hvalue).symm⟩
    · rw [hkept.unsupplied] at hvalue
      exact htimes name hname (ne_idKey_of_follow? hproper hfollow) value hvalue
  · intro value hvalue
    rw [Object.follow?_congr (value?_changed hname now merged)] at hvalue
    have hstores := Patched.built_behind hpatched hname hfollow (by simp) hgiven rfl
    exact .inl (hstores.passes_iff hvalue)

end Documents

/-- **The rules of a list hold for what is stored**, wherever the list is declared: whatever a new
document or a patch supplies, and also where the default stands in for it, the stored list passes
the rules, and building it again yields it unchanged. The exception is a null where the rules want
an item at least: it is stored as the empty list. -/
theorem array_rules_hold {context : Context} (hregistry : context.registry.Compiled)
    {collection : String} {tree : Tree} (htree : context.registry.tree? collection = some tree)
    {name : String} {rest : List String} {rules : Rules}
    (hfollow : tree.fields.follow? (name :: rest) = some (.array rules)) (path : String) :
    (∀ input inject, Build.Yields context (Build.insertDocument path collection input inject)
      (rules.HoldFor tree (name :: rest) (input.follow? (name :: rest)))) ∧
    (∀ (existing : Document) (patch : Object) given, (Value.object patch).KeysOnce →
      patch.follow? (name :: rest) = some given →
      (∀ key ∈ tree.managedKeys, key ≠ idKey → ∀ value,
        Object.value? existing key = some value → ∃ text, value = .string text) →
      Build.Yields context (Build.updateDocument path collection existing patch)
        (rules.HoldFor tree (name :: rest) (some given))) ∧
    ∀ items, rules.Passes items → ∀ field scope,
      Build.buildValue field (.array rules) (some (.array items)) scope =
        pure (some (.array items)) := by
  have hproper := hregistry.proper.tree? htree
  refine ⟨insertDocument_rules htree hproper hfollow, ?_, fun _ h _ _ => Build.buildArray_passes h⟩
  intro existing patch given hpatch hgiven htimes
  exact updateDocument_rules htree hproper hfollow hpatch hgiven htimes

/-! ### Cards -/

/-- A schema by which the tags of a card are one at least. -/
def cardDefinitions : List Definition :=
  [⟨"cards", {}, [("tags", .object [("type", .string "Array"), ("minLength", .ofNat 1)])]⟩]

/-- The rules of the tags of a card. -/
def cardRules : Rules := { minLength := some 1 }

/-- The compiled schema of cards. -/
def cardTree : Tree where
  collection := "cards"
  id := .standard
  fields := [("tags", .array cardRules)]
  settings := {}

theorem cards_compiled : Registry.Compiled { shardMax := 1000, trees := [cardTree] } := by
  refine ⟨1000, cardDefinitions, rfl, fun definition hin => ?_⟩
  cases List.mem_singleton.mp hin
  simp [Value.keysOnce_object_iff, Value.KeysOnce.string, Value.KeysOnce.number, Value.ofNat,
    Object.keys]

/-- What is looked at while cards are built in an empty store. -/
def cardContext : Context where
  registry := { shardMax := 1000, trees := [cardTree] }
  now := ⟨0, 0⟩
  source := IdSource.ofBytes .empty
  state := MemoryStore.backend.state { shardMax := 1000 }
  fetch := MemoryStore.backend.fetch { shardMax := 1000 }

/-- A card with a tag, of which the tags are replaced. -/
theorem tagged_card_holds :
    (Build.insertDocument "" "cards" [("tags", .array [.string "a"])] none cardContext {}).1 =
      .ok [("id", .ofNat 1), ("tags", .array [.string "a"])] ∧
    cardRules.Passes [.string "a"] ∧
    (Build.updateDocument "" "cards" [("id", .ofNat 1), ("tags", .array [.string "a"])]
      [("tags", .array [])] cardContext {}).1 = .error (.violation "tags" (.tooFewItems 1 0)) := by
  have hbuilt : (Build.insertDocument "" "cards" [("tags", .array [.string "a"])] none cardContext
      {}).1 = .ok [("id", .ofNat 1), ("tags", .array [.string "a"])] := by cbv
  obtain ⟨hnew, -, -⟩ := @array_rules_hold cardContext cards_compiled "cards" cardTree rfl "tags"
    [] cardRules rfl ""
  have hholds := (hnew [("tags", .array [.string "a"])] none {}).of_ok (Prod.ext hbuilt rfl)
  refine ⟨hbuilt, ?_, by cbv⟩
  rcases hholds _ rfl with ⟨items, hitems, hpasses⟩ | ⟨text, key, -, -, htext⟩
  · cases hitems
    exact hpasses.mpr fun hnull => by cases hnull
  · cases htext

/-- **A null goes around the rules**: the tags of a card are cleared, and writing the empty list
that is stored for them is refused. -/
theorem cleared_tags_break :
    (Build.insertDocument "" "cards" [("tags", .null)] none cardContext {}).1 =
      .ok [("id", .ofNat 1), ("tags", .array [])] ∧
    ¬ cardRules.Passes [] ∧
    (Build.updateDocument "" "cards" [("id", .ofNat 1), ("tags", .array [])]
      [("tags", .array [])] cardContext {}).1 = .error (.violation "tags" (.tooFewItems 1 0)) := by
  refine ⟨by cbv, fun hpasses => ?_, by cbv⟩
  have hleast := (Rules.passes_nil_iff.mp hpasses).least 1 rfl
  omega

end DocumentDb
