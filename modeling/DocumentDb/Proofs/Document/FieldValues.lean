import DocumentDb.Proofs.Document.Building
import DocumentDb.Proofs.Document.Paths

/-!
# Values of declared fields

What is built of an object has, for a declared key, the value that is built for this field, and so
on down the declared nested objects (`Logic.buildFields_follow`). A patch builds the value anew or
leaves it alone (`Logic.mergeFields_holdsAt`). This depends neither on what is said of the value nor
on what else is known of the steps, so it is stated for any `Logic` of steps.
-/

namespace DocumentDb

/-- Whatever stands behind segments is as `P` says. -/
def Object.HoldsAt (P : Value → Prop) (object : Object) (segments : List String) : Prop :=
  ∀ value, object.follow? segments = some value → P value

theorem Object.holdsAt_cons {P : Value → Prop} {object : Object} {name second : String}
    {rest : List String} : object.HoldsAt P (name :: second :: rest) ↔
      HoldsAt P (fieldsOf (value? object name)) (second :: rest) := by
  unfold HoldsAt
  rw [follow?_fieldsOf]

theorem Object.HoldsAt.congr {P : Value → Prop} {object other : Object} {name : String}
    {rest : List String} (h : object.HoldsAt P (name :: rest))
    (heq : value? other name = value? object name) : other.HoldsAt P (name :: rest) :=
  fun value hvalue => h value (by rwa [follow?_congr heq.symm])

/-- The items of the list behind a path; an absent list has none. -/
def Object.ListsAt (document : Document) (path : String) (items : List Value) : Prop :=
  (document.follow? (Text.splitAt '.' path) = none ∧ items = []) ∨
    document.follow? (Text.splitAt '.' path) = some (.array items)

/-- A list is no object. -/
theorem Object.ListsAt.not_object {document : Document} {path : String} {items : List Value}
    (h : document.ListsAt path items) (inner : Object) :
    document.follow? (Text.splitAt '.' path) ≠ some (.object inner) := by
  rcases h with ⟨hnone, -⟩ | hlist
  · simp [hnone]
  · simp [hlist]

/-- **A list is read as it is stored** where nothing but lists stands. -/
theorem Object.HoldsAt.items {document : Document} {path : String} {Q : List Value → Prop}
    (h : document.HoldsAt (fun value => ∃ items, value = .array items ∧ Q items)
      (Text.splitAt '.' path)) (hnil : Q []) :
    ∃ current, document.ListsAt path current ∧ Listing.items document path = .ok current ∧
      Q current := by
  unfold ListsAt Listing.items
  rw [Listing.itemsBehind_eq]
  cases hvalue : document.follow? (Text.splitAt '.' path) with
  | none => exact ⟨[], .inl ⟨rfl, rfl⟩, rfl, hnil⟩
  | some value =>
    obtain ⟨current, rfl, hcurrent⟩ := h value hvalue
    exact ⟨current, .inr rfl, rfl, hcurrent⟩

namespace Build

/-- **A logic of steps** says of a step what its value is like: it composes along `do` blocks. -/
structure Logic (holds : ∀ {α : Type}, Build α → (α → Prop) → Prop) : Prop where
  ret : ∀ {α : Type} {a : α} {done : α → Prop}, done a → holds (pure a) done
  lift : ∀ {α : Type} {result : Except Error α}, holds (lift result) fun a => result = .ok a
  bind : ∀ {α β : Type} {first : Build α} {next : α → Build β} {middle : α → Prop}
    {done : β → Prop}, holds first middle → (∀ a, middle a → holds (next a) done) →
      holds (first >>= next) done

/-- The undeclared fields have keys that are neither declared nor reserved. -/
theorem value?_passThrough {path name : String} {fields : Fields} {reserved : List String}
    {strict : Bool} {input others : Object}
    (h : passThrough path fields reserved strict input = .ok others) (hname : name ∈ fields.names) :
    Object.value? others name = none :=
  Object.value?_eq_none_iff.mpr fun hin => (passThrough_ok h).1 name hin hname

/-- A field that is no reference is built from its value in the input. -/
theorem buildField_eq_buildValue {path name : String} {node : Node} {input : Object}
    {scope : Scope} (hnode : injected? node scope = none) :
    buildField path name node input scope =
      buildValue (joinPath path name) node (Object.value? input name) scope := by
  rw [buildField]
  split
  · next value hvalue => rw [hvalue]
  · next hnone => rw [hnode, hnone]

/-- An absent reference that is filled in is checked like any other one. -/
theorem buildField_injected {path name : String} {node : Node} {input : Object} {scope : Scope}
    {owner : Owner} (hinput : Object.value? input name = none)
    (hinjected : injected? node scope = some owner) :
    buildField path name node input scope =
      some <$> checkReference (joinPath path name) owner.collection
        (reference owner.collection owner.id) := by
  rw [buildField]
  split
  · next value hvalue => rw [hinput] at hvalue; cases hvalue
  · rw [hinjected]

section Logic
variable {holds : ∀ {α : Type}, Build α → (α → Prop) → Prop} (logic : Logic holds)
  (hany : ∀ {path name : String} {node : Node} {input : Object} {scope : Scope},
    holds (buildField path name node input scope) fun _ => True)
  {path name : String} {node : Node} {input : Object} {scope : Scope} {reserved : List String}
include logic

theorem Logic.mono {α : Type} {step : Build α} {done done' : α → Prop} (h : holds step done)
    (hdone : ∀ a, done a → done' a) : holds step done' := by
  rw [← bind_pure step]
  exact logic.bind h fun a ha => logic.ret (hdone a ha)

theorem Logic.fail {α : Type} {e : Error} {done : α → Prop} : holds (fail e) done :=
  logic.mono logic.lift nofun

/-- **What is built for a nested object**: nothing, or an object of what is built for its fields. -/
theorem Logic.buildNested {inner : Fields} {value? : Option Value} {P : Object → Object → Prop}
    (hinner : ∀ path input, holds (buildFields path inner input scope.nested []) (P input)) :
    holds (buildValue path (.nested inner) value? scope) fun built =>
      P (fieldsOf value?) (fieldsOf built) := by
  have hempty : holds (do
      let built ← buildFields path inner [] scope.nested []
      pure (if built.isEmpty then none else some (.object built))) fun built : Option Value =>
        P [] (fieldsOf built) := by
    refine logic.bind (hinner _ _) fun built hbuilt => logic.ret ?_
    cases built with
    | nil => exact hbuilt
    | cons field rest => exact hbuilt
  unfold buildValue
  split
  · exact hempty
  · exact hempty
  · exact logic.bind (hinner _ _) fun built hbuilt => logic.ret hbuilt
  · exact logic.fail

include hany

theorem Logic.buildDeclared_keys (fields : Fields) :
    holds (buildDeclared path fields input scope) fun built =>
      ∀ key ∈ Object.keys built, key ∈ fields.names := by
  induction fields with
  | nil =>
    rw [buildDeclared]
    exact logic.ret nofun
  | cons field rest ih =>
    obtain ⟨key, first⟩ := field
    rw [buildDeclared]
    refine logic.bind hany fun built _ => logic.bind ih fun others hothers => ?_
    refine logic.ret fun other hother => ?_
    cases built with
    | none => exact List.mem_cons_of_mem _ (hothers other hother)
    | some value =>
      rcases List.mem_cons.mp hother with rfl | hin
      · exact List.mem_cons_self
      · exact List.mem_cons_of_mem _ (hothers other hin)

/-- **The value of a declared field** is the one that is built for it. -/
theorem Logic.buildDeclared_value {fields : Fields} (hnames : fields.names.Nodup)
    (hnode : fields.node? name = some node) {P : Option Value → Prop}
    (hfield : holds (buildField path name node input scope) P) :
    holds (buildDeclared path fields input scope) fun built => P (Object.value? built name) := by
  induction fields with
  | nil => cases hnode
  | cons field rest ih =>
    obtain ⟨key, first⟩ := field
    obtain ⟨hfresh, hrest⟩ := List.nodup_cons.mp hnames
    rw [buildDeclared]
    by_cases hkey : key = name
    · subst hkey
      rw [Fields.node?, if_pos rfl] at hnode
      cases hnode
      refine logic.bind hfield fun built hbuilt => ?_
      refine logic.bind (logic.buildDeclared_keys hany rest) fun others hothers => logic.ret ?_
      cases built with
      | none =>
        have hnone : Object.value? others key = none :=
          Object.value?_eq_none_iff.mpr fun hin => hfresh (hothers _ hin)
        rwa [hnone]
      | some value => rwa [Object.value?, if_pos rfl]
    · rw [Fields.node?, if_neg hkey] at hnode
      refine logic.bind hany fun built _ => logic.bind (ih hrest hnode) fun others hothers => ?_
      refine logic.ret ?_
      cases built with
      | none => exact hothers
      | some value => rwa [Object.value?, if_neg hkey]

theorem Logic.buildFields_value {fields : Fields} (hnames : fields.names.Nodup)
    (hnode : fields.node? name = some node) {P : Option Value → Prop}
    (hfield : holds (buildField path name node input scope) P) :
    holds (buildFields path fields input scope reserved) fun built =>
      P (Object.value? built name) := by
  rw [buildFields]
  refine logic.bind (logic.buildDeclared_value hany hnames hnode hfield)
    fun declared hdeclared => ?_
  refine logic.bind logic.lift fun others hothers => logic.ret ?_
  have hname : name ∈ fields.names := List.mem_map_of_mem (Fields.mem_of_node? hnode)
  rwa [Object.value?_append, value?_passThrough hothers hname, Option.or_none]

/-- **Wherever a field is declared**, what is built has there the value that is built for it. -/
theorem Logic.buildFields_follow {rest : List String} {P : Option Value → Option Value → Prop}
    (hplain : ∀ scope, injected? node scope = none)
    (hvalue : ∀ path value? scope, holds (buildValue path node value? scope) (P value?))
    {fields : Fields} (hproper : (Node.nested fields).Proper)
    (hfollow : fields.follow? (name :: rest) = some node) :
    holds (buildFields path fields input scope reserved) fun built =>
      P (input.follow? (name :: rest)) (built.follow? (name :: rest)) := by
  induction rest generalizing path name fields input scope reserved with
  | nil =>
    refine logic.buildFields_value hany hproper.names hfollow ?_
    rw [buildField_eq_buildValue (hplain scope)]
    exact hvalue _ _ _
  | cons second rest ih =>
    obtain ⟨inner, hnode, hinner⟩ := Fields.follow?_cons hfollow
    have hinnerProper := hproper.field _ (Fields.mem_of_node? hnode)
    refine logic.mono (logic.buildFields_value hany hproper.names hnode (P := fun built =>
      P (Object.follow? (fieldsOf (Object.value? input name)) (second :: rest))
        (Object.follow? (fieldsOf built) (second :: rest))) ?_) fun built hbuilt => ?_
    · rw [buildField_eq_buildValue rfl]
      exact logic.buildNested fun path input => ih hinnerProper hinner
    · rwa [Object.follow?_fieldsOf, Object.follow?_fieldsOf]

theorem Logic.buildFields_holdsAt {rest : List String} {P : Value → Prop}
    (hplain : ∀ scope, injected? node scope = none)
    (hvalue : ∀ path value? scope, holds (buildValue path node value? scope)
      fun built => ∀ value, built = some value → P value)
    {fields : Fields} (hproper : (Node.nested fields).Proper)
    (hfollow : fields.follow? (name :: rest) = some node) :
    holds (buildFields path fields input scope reserved)
      fun built => built.HoldsAt P (name :: rest) :=
  logic.buildFields_follow hany (P := fun _ built => ∀ value, built = some value → P value) hplain
    hvalue hproper hfollow

omit hany

/-! ### Values after a patch -/

variable
  (hbuild : ∀ {path : String} {node : Node} {value? : Option Value} {scope : Scope},
    holds (buildValue path node value? scope) fun _ => True)
  (hmerge : ∀ {path : String} {fields : Fields} {target patch : Object} {scope : Scope}
    {reserved : List String}, holds (mergeFields path fields target patch scope reserved)
      fun _ => True) {fields : Fields}
include hbuild hmerge

/-- **What a patch does to the value of a declared field**: a patch of a nested object is applied to
its fields, any other value is built anew. -/
theorem Logic.mergeFields_holds {P : Option Value → Prop} (hnode : fields.node? name = some node)
    (hnested : ∀ inner, node = .nested inner → ∀ path patch scope stored, P stored →
      holds (mergeFields path inner (fieldsOf stored) patch scope [])
        fun merged => P (some (.object merged)))
    (hvalue : (∀ inner, node ≠ .nested inner) → ∀ path value scope,
      holds (buildValue path node (some value) scope) P)
    {target : Object} (htarget : P (Object.value? target name)) :
    holds (mergeFields path fields target input scope reserved)
      fun merged => P (Object.value? merged name) := by
  induction input generalizing target with
  | nil =>
    rw [mergeFields]
    exact logic.ret htarget
  | cons entry rest ih =>
    obtain ⟨key, value⟩ := entry
    by_cases hreserved : reserved.contains key = true
    · rw [mergeFields, if_pos hreserved]
      exact ih htarget
    rw [Bool.not_eq_true] at hreserved
    have hother : ∀ {changed : Object}, key ≠ name →
        Object.value? changed name = Object.value? target name →
        holds (mergeFields path fields changed rest scope reserved)
          fun merged => P (Object.value? merged name) :=
      fun _ hsame => ih (by rwa [hsame])
    cases hkey : fields.node? key with
    | none =>
      have hne : key ≠ name := by
        rintro rfl
        rw [hnode] at hkey
        cases hkey
      rw [mergeFields, hreserved, hkey]
      simp only [Bool.false_eq_true, if_false]
      split_ifs
      · exact logic.fail
      · exact hother hne (by rw [Object.value?_put, if_neg hne])
    | some declared =>
      by_cases hinner : ∃ inner, declared = .nested inner
      · obtain ⟨inner, rfl⟩ := hinner
        rw [mergeFields, hreserved, hkey]
        simp only [Bool.false_eq_true, if_false]
        cases value with
        | object patch =>
          by_cases hne : key = name
          · subst hne
            rw [hnode] at hkey
            cases hkey
            refine logic.bind (hnested inner rfl _ _ _ _ htarget) fun merged hmerged => ih ?_
            rwa [Object.value?_put, if_pos rfl]
          · refine logic.bind hmerge fun merged _ => hother hne ?_
            rw [Object.value?_put, if_neg hne]
        | _ => exact logic.fail
      · have hplain : ∀ inner, declared ≠ .nested inner := fun inner h => hinner ⟨inner, h⟩
        rw [mergeFields_value hreserved hkey hplain]
        by_cases hne : key = name
        · subst hne
          rw [hnode] at hkey
          cases hkey
          refine logic.bind (hvalue hplain _ _ _) fun built hbuilt => ih ?_
          cases built with
          | none => rwa [Option.elim_none, Object.value?_without, if_pos rfl]
          | some built => rwa [Option.elim_some, Object.value?_put, if_pos rfl]
        · refine logic.bind hbuild fun built _ => hother hne ?_
          cases built with
          | none => rw [Option.elim_none, Object.value?_without, if_neg (Ne.symm hne)]
          | some built => rw [Option.elim_some, Object.value?_put, if_neg hne]

/-- **Wherever a field is declared**, a patch keeps a value that is as what is built for it. -/
theorem Logic.mergeFields_holdsAt {rest : List String} {P : Value → Prop}
    (hplain : ∀ inner, node ≠ .nested inner)
    (hvalue : ∀ path value scope, holds (buildValue path node (some value) scope)
      fun built => ∀ value, built = some value → P value)
    (hfollow : fields.follow? (name :: rest) = some node) {object : Object}
    (hobject : object.HoldsAt P (name :: rest)) :
    holds (mergeFields path fields object input scope reserved)
      fun merged => merged.HoldsAt P (name :: rest) := by
  induction rest generalizing path name fields object input scope reserved with
  | nil =>
    refine logic.mergeFields_holds hbuild hmerge
      (P := fun value? => ∀ value, value? = some value → P value) hfollow ?_ ?_ hobject
    · exact fun inner hinner => absurd hinner (hplain inner)
    · exact fun _ => hvalue
  | cons second rest ih =>
    obtain ⟨inner, hnode, hinner⟩ := Fields.follow?_cons hfollow
    refine logic.mono (logic.mergeFields_holds hbuild hmerge
      (P := fun stored => Object.HoldsAt P (fieldsOf stored) (second :: rest)) hnode ?_ ?_
      (Object.holdsAt_cons.mp hobject)) fun merged hmerged => Object.holdsAt_cons.mpr hmerged
    · rintro _ ⟨⟩ path patch scope stored hstored
      exact ih hinner hstored
    · exact fun hplain => absurd rfl (hplain inner)

end Logic

end Build

end DocumentDb
