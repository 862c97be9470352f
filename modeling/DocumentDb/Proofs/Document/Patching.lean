import DocumentDb.Proofs.Document.KeyOrder
import DocumentDb.Proofs.Document.Paths

/-!
# What a patch changes

A patch is applied entry by entry, and an entry sets the value of its key only (`Entered`). So a
patch changes an object key by key: `Patched` says what it makes of the value of a key, and nested
objects are patched in the same way (`mergeFields_patched`).

Wherever a patch *runs out* (`RunsOut`) everything stays as it was, absent values included. At its
end a change only sets the time of the change and puts the fields in order, which neither loses nor
doubles any of them (`change_keeps`).
-/

namespace DocumentDb

/-! ### Patched values -/

namespace Object

variable {object : Object}

/-- What a patch supplies for a key; it does not reach reserved keys. -/
def supplied? (patch : Object) (reserved : List String) (key : String) : Option Value :=
  if key ∈ reserved then none else value? patch key

theorem supplied?_nil {key : String} : object.supplied? [] key = value? object key :=
  if_neg List.not_mem_nil

theorem put_keys_nodup {key : String} {value : Value} (h : (keys object).Nodup) :
    (keys (object.put key value)).Nodup := by
  rw [keys_put]
  split_ifs with hin
  · exact h
  · exact h.append (List.nodup_singleton key) (List.disjoint_singleton.mpr hin)

theorem without_keys_nodup {key : String} (h : (keys object).Nodup) :
    (keys (object.without key)).Nodup :=
  h.sublist (List.filter_sublist.map _)

end Object

/-- **What a patch makes of the value of a key**: without a value in the patch it stays, a value for
a key that is not declared passes through, a nested object is patched key by key, and what any other
field gets is as `built` says. -/
inductive Patched (built : Node → Value → Option Value → Prop) :
    Option Node → Option Value → Option Value → Option Value → Prop
  | kept {node? : Option Node} {before : Option Value} : Patched built node? none before before
  | passed {value : Value} {before : Option Value} :
    Patched built none (some value) before (some value)
  | leaf {node : Node} {value : Value} {before after : Option Value}
    (hplain : ∀ inner, node ≠ .nested inner) (h : built node value after) :
    Patched built (some node) (some value) before after
  | nested {inner : Fields} {deeper within : Object} {before : Option Value}
    (h : ∀ key, Patched built (inner.node? key) (Object.value? deeper key)
      (Object.value? (fieldsOf before) key) (Object.value? within key)) :
    Patched built (some (.nested inner)) (some (.object deeper)) before (some (.object within))

theorem Patched.unsupplied {built : Node → Value → Option Value → Prop} {node? : Option Node}
    {before after : Option Value} (h : Patched built node? none before after) : after = before := by
  cases h with
  | kept => rfl

/-- The fields are those of a document that exists already, or of nested objects in it: no absent
reference is filled in. -/
structure Scope.Attached (owner : Owner) (scope : Scope) : Prop where
  owner : scope.owner = owner
  inject : scope.inject = none

theorem Scope.Attached.nested {owner : Owner} {scope : Scope} (h : scope.Attached owner) :
    scope.nested.Attached owner where
  owner := h.owner
  inject := by rw [Scope.nested, h.inject, ite_self]

namespace Build

section Patching
variable {context : Context} {path : String} {scope : Scope} {fields : Fields}
  {reserved : List String} {target : Object} {built : Node → Value → Option Value → Prop}

/-- A patch is applied entry by entry. -/
theorem mergeFields_cons {rest : Object} {key : String} {value : Value} :
    mergeFields path fields target ((key, value) :: rest) scope reserved = (do
      let next ← mergeFields path fields target [(key, value)] scope reserved
      mergeFields path fields next rest scope reserved) := by
  by_cases hreserved : reserved.contains key = true
  · rw [mergeFields, mergeFields, if_pos hreserved, if_pos hreserved, mergeFields, pure_bind]
  have hfree : reserved.contains key = false := Bool.eq_false_iff.mpr hreserved
  cases hnode : fields.node? key with
  | none =>
    rw [mergeFields, mergeFields, if_neg hreserved, if_neg hreserved, hnode]
    dsimp only
    split_ifs
    · rfl
    · rw [mergeFields, pure_bind]
  | some node =>
    by_cases hnested : ∃ inner, node = .nested inner
    · obtain ⟨inner, rfl⟩ := hnested
      cases value with
      | object deeper =>
        rw [mergeFields, if_neg hreserved, hnode, mergeFields_nested (by simpa using hfree) hnode,
          bind_assoc]
        simp only [pure_bind]
      | _ =>
        rw [mergeFields, mergeFields, if_neg hreserved, if_neg hreserved, hnode]
        rfl
    · have hplain : ∀ inner, node ≠ .nested inner := fun inner h => hnested ⟨inner, h⟩
      rw [mergeFields_value hfree hnode hplain, mergeFields_value hfree hnode hplain, bind_assoc]
      refine congrArg _ (funext fun built => ?_)
      rw [mergeFields, pure_bind]

/-- **What one entry of a patch makes of an object**: it sets the value of its key and no other. -/
structure Entered (built : Node → Value → Option Value → Prop) (fields : Fields)
    (key : String) (supplied : Option Value) (target next : Object) : Prop where
  own : Patched built (fields.node? key) supplied (Object.value? target key)
    (Object.value? next key)
  others : ∀ other ≠ key, Object.value? next other = Object.value? target other
  once : (Object.keys target).Nodup → (Object.keys next).Nodup

theorem Entered.put {key : String} {supplied : Option Value} {value : Value}
    (h : Patched built (fields.node? key) supplied (Object.value? target key) (some value)) :
    Entered built fields key supplied target (target.put key value) where
  own := by rwa [Object.value?_put, if_pos rfl]
  others other hne := by rw [Object.value?_put, if_neg (Ne.symm hne)]
  once := Object.put_keys_nodup

theorem Entered.without {key : String} {supplied : Option Value}
    (h : Patched built (fields.node? key) supplied (Object.value? target key) none) :
    Entered built fields key supplied target (target.without key) where
  own := by rwa [Object.value?_without, if_pos rfl]
  others other hne := by rw [Object.value?_without, if_neg hne]
  once := Object.without_keys_nodup

theorem mergeFields_entered {key : String} {value : Value}
    (hvalue : ∀ node, fields.node? key = some node → (∀ inner, node ≠ .nested inner) → ∀ path,
      Yields context (buildValue path node (some value) scope) (built node value))
    (hnested : ∀ (inner : Fields) deeper, fields.node? key = some (.nested inner) →
      value = .object deeper → ∀ path target,
        Yields context (mergeFields path inner target deeper scope.nested []) fun within =>
          ∀ key, Patched built (inner.node? key) (Object.value? deeper key)
            (Object.value? target key) (Object.value? within key)) :
    Yields context (mergeFields path fields target [(key, value)] scope reserved)
      (Entered built fields key (Object.supplied? [(key, value)] reserved key) target) := by
  by_cases hreserved : key ∈ reserved
  · have hnone : Object.supplied? [(key, value)] reserved key = none := if_pos hreserved
    rw [mergeFields, if_pos (List.contains_iff_mem.mpr hreserved), mergeFields, hnone]
    exact yields_pure ⟨.kept, fun _ _ => rfl, id⟩
  have hsome : Object.supplied? [(key, value)] reserved key = some value := by
    rw [Object.supplied?, if_neg hreserved, Object.value?, if_pos rfl]
  have hfree : reserved.contains key = false := by simpa using hreserved
  rw [hsome]
  cases hnode : fields.node? key with
  | none =>
    rw [mergeFields, hfree, hnode]
    simp only [Bool.false_eq_true, if_false]
    split_ifs
    · exact yields_fail
    · rw [mergeFields]
      exact yields_pure (.put (hnode ▸ .passed))
  | some node =>
    by_cases hinner : ∃ inner, node = .nested inner
    · obtain ⟨inner, rfl⟩ := hinner
      cases value with
      | object deeper =>
        rw [mergeFields_nested hreserved hnode]
        refine (hnested inner deeper hnode rfl _ _).bind fun within hwithin => yields_pure ?_
        exact .put (hnode ▸ .nested hwithin)
      | _ =>
        rw [mergeFields, hfree, hnode]
        exact yields_fail
    · have hplain : ∀ inner, node ≠ .nested inner := fun inner h => hinner ⟨inner, h⟩
      rw [mergeFields_value hfree hnode hplain]
      refine (hvalue node hnode hplain _).bind fun result hresult => ?_
      rw [mergeFields]
      have hleaf : Patched built (some node) (some value) (Object.value? target key) result :=
        .leaf hplain hresult
      cases result with
      | none => exact yields_pure (.without (hnode ▸ hleaf))
      | some result => exact yields_pure (.put (hnode ▸ hleaf))

/-- **What a patch makes of an object**, key by key, if its leaves are built as `built` says. -/
theorem mergeFields_patched {owner : Owner}
    (hvalue : ∀ node : Node, node.Proper → (∀ inner, node ≠ .nested inner) →
      ∀ path value scope, Scope.Attached owner scope →
        Yields context (buildValue path node (some value) scope) (built node value))
    (path : String) (fields : Fields) (target patch : Object) (scope : Scope)
    (reserved : List String) (hproper : (Node.nested fields).Proper)
    (hpatch : (Value.object patch).KeysOnce) (hscope : scope.Attached owner) :
    Yields context (mergeFields path fields target patch scope reserved) fun merged =>
      (∀ key, Patched built (fields.node? key) (patch.supplied? reserved key)
        (Object.value? target key) (Object.value? merged key)) ∧
      ((Object.keys target).Nodup → (Object.keys merged).Nodup) := by
  match patch with
  | [] =>
    rw [mergeFields]
    refine yields_pure ⟨fun key => ?_, id⟩
    have hnone : Object.supplied? [] reserved key = none := ite_self none
    rw [hnone]
    exact .kept
  | (name, value) :: rest =>
    have hfresh : name ∉ Object.keys rest := (List.nodup_cons.mp hpatch.keys).1
    have hentered : Yields context (mergeFields path fields target [(name, value)] scope reserved)
        (Entered built fields name (Object.supplied? [(name, value)] reserved name) target) := by
      refine mergeFields_entered (fun node hnode hplain path => ?_)
        fun inner deeper hnode hdeeper path target => ?_
      · have hnodeProper := hproper.field _ (Fields.mem_of_node? hnode)
        exact hvalue node hnodeProper hplain path value scope hscope
      · subst hdeeper
        have hinner := hproper.field _ (Fields.mem_of_node? hnode)
        refine (mergeFields_patched hvalue path inner target deeper scope.nested [] hinner
          (hpatch.field _ List.mem_cons_self) hscope.nested).mono fun within h key => ?_
        rw [← Object.supplied?_nil]
        exact h.1 key
    rw [mergeFields_cons]
    refine hentered.bind fun next hnext => ?_
    refine (mergeFields_patched hvalue path fields next rest scope reserved hproper
      hpatch.otherFields hscope).mono fun merged hmerged => ⟨fun key => ?_, fun h =>
        hmerged.2 (hnext.once h)⟩
    have hkey := hmerged.1 key
    by_cases hname : key = name
    · -- The other entries leave the key of the first one alone.
      subst hname
      have hnone : Object.supplied? rest reserved key = none := by
        rw [Object.supplied?, Object.value?_eq_none_iff.mpr hfresh, ite_self]
      have hsame : Object.supplied? ((key, value) :: rest) reserved key =
          Object.supplied? [(key, value)] reserved key := by
        simp [Object.supplied?, Object.value?]
      rw [hnone] at hkey
      rw [hsame, hkey.unsupplied]
      exact hnext.own
    · have hsame : Object.supplied? ((name, value) :: rest) reserved key =
          Object.supplied? rest reserved key := by
        simp [Object.supplied?, Object.value?, Ne.symm hname]
      rw [hsame, ← hnext.others key hname]
      exact hkey
termination_by sizeOf patch

/-- An id in a patch is the one of the document. -/
theorem eq_of_checkSameId {id : DocId} {patch : Object} {value : Value}
    (h : checkSameId path id patch = .ok ()) (hvalue : Object.value? patch idKey = some value) :
    value = id.toValue := by
  unfold checkSameId at h
  rw [hvalue] at h
  split at h
  · next hnone => cases hnone
  · cases h
  · next other _ hother =>
    cases hother
    split_ifs at h with hid
    exact DocId.eq_toValue hid

/-- **What a patch makes of a document.** -/
theorem updateDocument_patched (built : Node → Value → Option Value → Prop) {collection : String}
    {tree : Tree} (htree : context.registry.tree? collection = some tree) (hproper : tree.Proper)
    {existing : Document} {patch : Object} (hpatch : (Value.object patch).KeysOnce)
    (hvalue : ∀ id, existing.id? = some id → ∀ node : Node, node.Proper →
      (∀ inner, node ≠ .nested inner) → ∀ path value scope, scope.Attached ⟨collection, id⟩ →
        Yields context (buildValue path node (some value) scope) (built node value)) :
    Yields context (updateDocument path collection existing patch) fun document =>
      ∃ id merged now, existing.id? = some id ∧ checkSameId path id patch = .ok () ∧
        document = tree.order (stampChanged tree now merged) ∧
        (∀ key, Patched built (tree.fields.node? key) (patch.supplied? tree.managedKeys key)
          (Object.value? existing key) (Object.value? merged key)) ∧
        ((Object.keys existing).Nodup → (Object.keys merged).Nodup) := by
  rw [updateDocument]
  refine (tree_yields htree).bind ?_
  rintro _ rfl
  split
  · exact yields_fail
  · next id hid =>
    refine yields_lift.bind fun _ hsame => ?_
    refine (mergeFields_patched (hvalue id hid) path _ existing patch _ _ hproper.fields hpatch
      ⟨rfl, rfl⟩).bind fun merged hmerged => ?_
    refine yields_any.bind fun own _ => yields_any.bind fun _ _ => yields_pure ?_
    exact ⟨id, merged, own.now, hid, hsame, rfl, hmerged⟩

end Patching

end Build

/-! ### Where a patch runs out -/

/-- **A patch runs out along a path**: on the way down through declared nested objects it lacks a
key. -/
inductive RunsOut : Fields → Object → List String → Prop
  | here {fields : Fields} {patch : Object} {name : String} {rest : List String}
    (h : Object.value? patch name = none) : RunsOut fields patch (name :: rest)
  | inside {fields inner : Fields} {patch deeper : Object} {name : String} {rest : List String}
    (hnode : fields.node? name = some (.nested inner))
    (hvalue : Object.value? patch name = some (.object deeper)) (h : RunsOut inner deeper rest) :
    RunsOut fields patch (name :: rest)

/-- **Where a patch runs out, nothing changes.** -/
theorem RunsOut.follow?_eq {built : Node → Value → Option Value → Prop} {fields : Fields}
    {patch target merged : Object} {reserved path : List String} (h : RunsOut fields patch path)
    (hpatched : ∀ key, Patched built (fields.node? key) (patch.supplied? reserved key)
      (Object.value? target key) (Object.value? merged key)) :
    merged.follow? path = target.follow? path := by
  induction h generalizing target merged reserved with
  | @here fields patch name rest hnone =>
    have hkey := hpatched name
    rw [Object.supplied?, hnone, ite_self] at hkey
    exact Object.follow?_congr hkey.unsupplied
  | @inside fields inner patch deeper name rest hnode hvalue h ih =>
    have hkey := hpatched name
    by_cases hreserved : name ∈ reserved
    · rw [Object.supplied?, if_pos hreserved] at hkey
      exact Object.follow?_congr hkey.unsupplied
    rw [Object.supplied?, if_neg hreserved, hvalue, hnode] at hkey
    generalize hafter : Object.value? merged name = after at hkey
    cases hkey with
    | leaf hplain => exact absurd rfl (hplain inner)
    | @nested _ _ within _ hwithin =>
      cases h with
      | here | inside =>
        rw [Object.follow?_fieldsOf, Object.follow?_fieldsOf, hafter]
        simp only [← Object.supplied?_nil] at hwithin
        exact ih hwithin

namespace Tree

variable {tree : Tree}

/-- **Ordering neither loses nor doubles a key.** -/
theorem keys_order_perm (hproper : tree.Proper) {document : Document}
    (honce : (Object.keys document).Nodup) :
    (Object.keys (tree.order document)).Perm (Object.keys document) := by
  obtain ⟨kept, hperm, hkept⟩ := order_subperm document hproper
  have hordered : (Object.keys (tree.order document)).Nodup :=
    (hperm.map _).nodup_iff.mp (honce.sublist (hkept.map _))
  refine (List.perm_ext_iff_of_nodup hordered honce).mpr fun key => ?_
  rw [← not_iff_not, ← Object.value?_eq_none_iff, ← Object.value?_eq_none_iff, value?_order]

end Tree

theorem stampChanged_keys_nodup {tree : Tree} {now : Instant} {document : Document}
    (honce : (Object.keys document).Nodup) :
    (Object.keys (Build.stampChanged tree now document)).Nodup := by
  unfold Build.stampChanged
  split_ifs
  · exact Object.put_keys_nodup honce
  · exact honce

/-! ### Guests -/

/-- A schema by which guests have a home, and times are kept. -/
def guestDefinitions : List Definition :=
  [⟨"guests", { createdAt := true, updatedAt := true },
    [("home", .object [("city", .string "String"), ("zip", .string "String")])]⟩]

/-- The compiled schema of guests. -/
def guestTree : Tree where
  collection := "guests"
  id := .standard
  fields := [("home", .nested [("city", .scalar .string {}), ("zip", .scalar .string {})])]
  settings := { createdAt := true, updatedAt := true }

theorem guests_compiled : Registry.Compiled { shardMax := 1000, trees := [guestTree] } := by
  refine ⟨1000, guestDefinitions, rfl, fun definition hin => ?_⟩
  cases List.mem_singleton.mp hin
  simp [Value.keysOnce_object_iff, Value.KeysOnce.string, Object.keys]

/-- What is looked at while guests are changed on the first day of 1970. -/
def guestContext : Context where
  registry := { shardMax := 1000, trees := [guestTree] }
  now := ⟨0, 0⟩
  source := IdSource.ofBytes .empty
  state := MemoryStore.backend.state { shardMax := 1000 }
  fetch := MemoryStore.backend.fetch { shardMax := 1000 }

/-- A guest who has lived in a city for a while. -/
def theGuest : Document :=
  [("id", .ofNat 1), ("home", .object [("city", .string "a"), ("zip", .string "1")]),
    ("created_at", .string "x"), ("updated_at", .string "y")]

/-- **A change keeps all that its patch does not reach.** Where the patch runs out the document is
as it was, but for the time of the change; its id and the time of its creation never change, an id
in the patch is the one of the document, and putting the fields in order neither loses nor doubles
a key. -/
theorem change_keeps {context : Context} (hregistry : context.registry.Compiled)
    {collection : String} {tree : Tree} (htree : context.registry.tree? collection = some tree)
    {existing : Document} {patch : Object} (hpatch : (Value.object patch).KeysOnce) :
    Build.Yields context (Build.change collection existing (.object patch)) (fun document =>
      (∀ path, RunsOut tree.fields patch path →
        ¬ (tree.settings.updatedAt = true ∧ path.head? = some updatedKey) →
          document.follow? path = existing.follow? path) ∧
      Object.value? document idKey = Object.value? existing idKey ∧
      (tree.settings.createdAt = true →
        Object.value? document createdKey = Object.value? existing createdKey) ∧
      (∀ value, Object.value? patch idKey = some value →
        Object.value? existing idKey = some value) ∧
      ((Object.keys existing).Nodup → (Object.keys document).Nodup)) ∧
    ∀ document : Document, (Object.keys document).Nodup →
      (Object.keys (tree.order document)).Perm (Object.keys document) := by
  have hproper := hregistry.proper.tree? htree
  refine ⟨?_, fun document => Tree.keys_order_perm hproper⟩
  rw [Build.change, Build.inputObject, pure_bind]
  refine (Build.updateDocument_patched (fun _ _ _ => True) htree hproper hpatch
    fun _ _ _ _ _ _ _ _ _ => Build.yields_any).mono ?_
  rintro _ ⟨id, merged, now, hid, hsame, rfl, hpatched, honce⟩
  have hvalue : ∀ key, ¬ (tree.settings.updatedAt = true ∧ updatedKey = key) →
      Object.value? (tree.order (Build.stampChanged tree now merged)) key =
        Object.value? merged key := by
    intro key hkey
    rw [Tree.value?_order, value?_stampChanged, if_neg hkey]
  have hmanaged : ∀ key ∈ tree.managedKeys, Object.value? merged key = Object.value? existing key :=
    fun key hkey => by
      have hkept := hpatched key
      rw [Object.supplied?, if_pos hkey] at hkept
      exact hkept.unsupplied
  refine ⟨fun path hpath hother => ?_, ?_, fun hset => ?_, fun value hgiven => ?_, fun hnames =>
    (Tree.keys_order_perm hproper (stampChanged_keys_nodup (honce hnames))).nodup_iff.mpr
      (stampChanged_keys_nodup (honce hnames))⟩
  · rw [← hpath.follow?_eq hpatched]
    cases hpath with
    | here | inside =>
      refine Object.follow?_congr (hvalue _ fun htime => hother ?_)
      rw [List.head?_cons, htime.2]
      exact ⟨htime.1, rfl⟩
  · rw [hvalue _ fun htime => absurd htime.2 (by decide)]
    exact hmanaged idKey List.mem_cons_self
  · rw [hvalue _ fun htime => absurd htime.2 (by decide)]
    exact hmanaged createdKey (created_mem_managed hset)
  · rw [Object.value?_id hid]
    exact congrArg some (Build.eq_of_checkSameId hsame hgiven).symm

/-- A guest who moves to another city keeps the rest of the home. -/
theorem moved_guest_keeps :
    (Build.change "guests" theGuest (.object [("home", .object [("city", .string "b")])])
      guestContext {}).1 = .ok
        [("id", .ofNat 1), ("home", .object [("city", .string "b"), ("zip", .string "1")]),
          ("created_at", .string "x"), ("updated_at", .string "1970-01-01T00:00:00.000Z")] ∧
    ∀ document, (Build.change "guests" theGuest
      (.object [("home", .object [("city", .string "b")])]) guestContext {}).1 = .ok document →
        document.follow? ["home", "zip"] = theGuest.follow? ["home", "zip"] := by
  have hpatch : (Value.object [("home", .object [("city", .string "b")])]).KeysOnce := by
    simp [Value.keysOnce_object_iff, Value.KeysOnce.string, Object.keys]
  have hkeeps := (@change_keeps guestContext guests_compiled "guests" guestTree rfl theGuest _
    hpatch).1
  refine ⟨by cbv, fun document hdocument => ?_⟩
  obtain ⟨hpaths, -⟩ := (hkeeps {}).of_ok (Prod.ext hdocument rfl)
  exact hpaths _ (.inside rfl rfl (.here rfl)) fun htime => absurd htime.2 (by decide)

end DocumentDb
