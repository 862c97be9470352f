import DocumentDb.Document.Builder
import DocumentDb.Proofs.Schema.Proper
import Mathlib.Tactic.SplitIfs

/-!
# What building is composed of

The builder goes through the input along the schema. What it does on the way is composed of few
kinds of steps: it checks and casts values, which depends on no state, it checks references, and it
embeds the documents that the input mentions (`Composed`). So whatever composes along `do` blocks
and holds of these steps, holds of all that is built. `Mentions` is which objects of the input stand
for documents, and of which collections.

The objects inside a mentioned one matter only if it is not *skipped*: taken as it is.
-/

namespace DocumentDb

/-! ### Documents that the input mentions -/

/-- The collection of the document that an object stands for in the place of a node. -/
def Node.stands? (node : Node) (input : Object) : Option String :=
  match node with
  | reference collection _ _ =>
    if (Value.object input).isReference then none else some collection
  | document collection _ => some collection
  | _ => none

/-- **The input for a node mentions an object as a document of a collection.** Objects inside those
that are skipped do not count. -/
inductive Mentions (registry : Registry) (skip : String → Object → Prop) :
    Node → Value → String → Object → Prop
  | own {node : Node} {collection : String} {input : Object}
    (hstands : node.stands? input = some collection) :
    Mentions registry skip node (.object input) collection input
  | inside {node : Node} {target collection : String} {tree : Tree} {input object : Object}
    (hstands : node.stands? input = some target) (hskip : ¬ skip target input)
    (htree : registry.tree? target = some tree)
    (h : Mentions registry skip (.nested tree.fields) (.object input) collection object) :
    Mentions registry skip node (.object input) collection object
  | field {fields : Fields} {name collection : String} {node : Node} {input object : Object}
    {value : Value} (hfield : (name, node) ∈ fields) (hvalue : (name, value) ∈ input)
    (h : Mentions registry skip node value collection object) :
    Mentions registry skip (.nested fields) (.object input) collection object
  | item {element : Element} {items : List Value} {item : Value} {collection : String}
    {object : Object} (hitem : item ∈ items)
    (h : Mentions registry skip element.asNode item collection object) :
    Mentions registry skip (.list element) (.array items) collection object

/-- All objects that the input for a node mentions are as asked. -/
def Mentioned (registry : Registry) (skip asked : String → Object → Prop) (node : Node)
    (value : Value) : Prop :=
  ∀ collection object, Mentions registry skip node value collection object →
    asked collection object

section Mentioned
variable {registry : Registry} {skip asked : String → Object → Prop} {fields : Fields}
  {input : Object}

theorem Mentioned.inside {node : Node} {collection : String} {tree : Tree}
    (h : Mentioned registry skip asked node (.object input))
    (hstands : node.stands? input = some collection) (hskip : ¬ skip collection input)
    (htree : registry.tree? collection = some tree) :
    Mentioned registry skip asked (.nested tree.fields) (.object input) :=
  fun other object hmentions => h other object (.inside hstands hskip htree hmentions)

theorem Mentioned.field {name : String} {node : Node} {value : Value}
    (h : Mentioned registry skip asked (.nested fields) (.object input))
    (hfield : (name, node) ∈ fields) (hvalue : (name, value) ∈ input) :
    Mentioned registry skip asked node value :=
  fun other object hmentions => h other object (.field hfield hvalue hmentions)

theorem Mentioned.item {element : Element} {items : List Value}
    (h : Mentioned registry skip asked (.list element) (.array items)) :
    ∀ item ∈ items, Mentioned registry skip asked element.asNode item :=
  fun _ hitem other object hmentions => h other object (.item hitem hmentions)

/-- What a document mentions does not depend on the node it stands at. -/
theorem Mentioned.retarget {node : Node} {collection : String}
    (h : Mentioned registry skip asked node (.object input))
    (hstands : node.stands? input = some collection) :
    Mentioned registry skip asked (.document collection false) (.object input) := by
  intro other object hmentions
  cases hmentions with
  | own hown => cases hown; exact h _ _ (.own hstands)
  | inside hown hskip htree hmentions =>
    cases hown; exact h _ _ (.inside hstands hskip htree hmentions)

/-- A nested object mentions what its fields mention. -/
theorem Mentioned.of_fields (h : ∀ name node value, (name, node) ∈ fields →
    (name, value) ∈ input → Mentioned registry skip asked node value) :
    Mentioned registry skip asked (.nested fields) (.object input) := by
  intro other object hmentions
  cases hmentions with
  | own hstands => cases hstands
  | inside hstands => cases hstands
  | field hfield hvalue hmentions => exact h _ _ _ hfield hvalue other object hmentions

theorem Mentioned.nothing : Mentioned registry skip asked (.nested fields) (.object []) :=
  .of_fields fun _ _ _ _ hvalue => by cases hvalue

theorem Mentioned.fewer_fields {field : String × Node}
    (h : Mentioned registry skip asked (.nested (field :: fields)) (.object input)) :
    Mentioned registry skip asked (.nested fields) (.object input) :=
  .of_fields fun _ _ _ hfield hvalue => h.field (List.mem_cons_of_mem _ hfield) hvalue

theorem Mentioned.less_input {entry : String × Value}
    (h : Mentioned registry skip asked (.nested fields) (.object (entry :: input))) :
    Mentioned registry skip asked (.nested fields) (.object input) :=
  .of_fields fun _ _ _ hfield hvalue => h.field hfield (List.mem_cons_of_mem _ hvalue)

end Mentioned

namespace Build

/-! ### Steps -/

section Steps
variable {α β : Type} {context : Context} {work : Work}

theorem bind_eq (first : Build α) (next : α → Build β) (context : Context) (work : Work) :
    (first >>= next) context work =
      match first context work with
      | (.ok a, after) => next a context after
      | (.error e, after) => (.error e, after) := by
  simp only [bind, ReaderT.bind, ExceptT.bind, ExceptT.mk, StateT.bind]
  rcases first context work with ⟨result, after⟩
  cases result <;> rfl

theorem map_eq (step : Build α) (f : α → β) (context : Context) (work : Work) :
    (f <$> step) context work = ((step context work).1.map f, (step context work).2) := by
  simp only [Functor.map, ExceptT.map, ExceptT.mk, bind, StateT.bind]
  rcases step context work with ⟨result, after⟩
  cases result <;> rfl

theorem bind_of_ok {first : Build α} {a : α} {after : Work}
    (h : first context work = (.ok a, after)) (next : α → Build β) :
    (first >>= next) context work = next a context after := by
  rw [bind_eq, h]

/-- A look at a space: it is at hand, or it is read from the store. -/
theorem space_step (collection : String) (context : Context) (work : Work) :
    space collection context work =
      (match work.space? collection with
        | some space => (pure space : Build IdSpace)
        | none => do
          let tree ← tree collection
          let state ← lift ((← read).state collection)
          let space := IdSpace.ofState tree state
          modify fun work : Work => work.put space
          pure space) context work := rfl

/-- A space that was looked at before is at hand. -/
theorem space_of_looked {collection : String} {space : IdSpace}
    (hspace : work.space? collection = some space) :
    Build.space collection context work = (.ok space, work) := by
  rw [space_step, hspace]
  rfl

end Steps

/-! ### Composed steps -/

/-- **What building is composed of**: steps that depend on no state, checks of references, and
embedded documents. These are as asked, and their fields are built by composed steps again, unless
they are skipped. -/
inductive Composed (registry : Registry) (skip asked : String → Object → Prop) :
    {α : Type} → Build α → Prop
  | lift {α : Type} {result : Except Error α} : Composed registry skip asked (lift result)
  | bind {α β : Type} {first : Build α} {next : α → Build β}
    (hfirst : Composed registry skip asked first)
    (hnext : ∀ a, Composed registry skip asked (next a)) :
    Composed registry skip asked (first >>= next)
  | checkReference {path collection : String} {value : Value} :
    Composed registry skip asked (checkReference path collection value)
  | embed {path collection : String} {input : Object} {inject : Option Owner}
    (hasked : asked collection input)
    (hnew : ¬ skip collection input → ∀ tree, registry.tree? collection = some tree →
      ∀ path scope reserved, Composed registry skip asked
        (buildFields path tree.fields input scope reserved))
    (hchanged : ¬ skip collection input → ∀ tree, registry.tree? collection = some tree →
      ∀ path target scope reserved, Composed registry skip asked
        (mergeFields path tree.fields target input scope reserved)) :
    Composed registry skip asked (embedDocument path collection input inject)

section Single
variable {registry : Registry} {skip asked : String → Object → Prop} {α β : Type}

theorem Composed.pure {a : α} : Composed registry skip asked (pure a) := .lift

theorem Composed.map {step : Build α} {f : α → β} (h : Composed registry skip asked step) :
    Composed registry skip asked (f <$> step) := by
  rw [map_eq_pure_bind]
  exact h.bind fun _ => .pure

theorem absent_composed {path : String} {required : Bool} :
    Composed registry skip asked (absent path required) := by
  unfold absent
  split_ifs
  · exact .lift
  · exact .pure

theorem keepNull_composed {path : String} {required : Bool} :
    Composed registry skip asked (keepNull path required) := by
  unfold keepNull
  split_ifs
  · exact .lift
  · exact .pure

theorem buildUntyped_composed {path : String} {rules : Rules} {value? : Option Value} :
    Composed registry skip asked (buildUntyped path rules value?) := by
  have hcheck : ∀ value, Composed registry skip asked (buildUntyped.check path rules value) := by
    intro value
    unfold buildUntyped.check
    split
    · exact .bind .lift fun _ => .pure
    · exact .lift
  unfold buildUntyped
  split
  · exact .pure
  · exact hcheck _
  · exact hcheck _
  · exact absent_composed

end Single

/-! ### The builder -/

section Builder
variable {registry : Registry} {skip asked : String → Object → Prop}

mutual

/-- Building the fields of an object is composed of steps. -/
theorem buildFields_composed (path : String) (fields : Fields) (input : Object) (scope : Scope)
    (reserved : List String)
    (hinput : Mentioned registry skip asked (.nested fields) (.object input)) :
    Composed registry skip asked (buildFields path fields input scope reserved) := by
  rw [buildFields]
  refine (buildDeclared_composed path fields input scope hinput).bind fun declared => ?_
  exact .bind .lift fun _ => .pure
termination_by (sizeOf input, 1, 2 * sizeOf fields + 1)

theorem buildDeclared_composed (path : String) (fields : List (String × Node)) (input : Object)
    (scope : Scope) (hinput : Mentioned registry skip asked (.nested fields) (.object input)) :
    Composed registry skip asked (buildDeclared path fields input scope) := by
  match fields with
  | [] =>
    rw [buildDeclared]
    exact .pure
  | (name, node) :: rest =>
    rw [buildDeclared]
    refine (buildField_composed path name node input scope fun value hvalue =>
      hinput.field List.mem_cons_self (Object.mem_of_value? hvalue)).bind fun built => ?_
    exact (buildDeclared_composed path rest input scope hinput.fewer_fields).bind fun _ => .pure
termination_by (sizeOf input, 1, 2 * sizeOf fields)

theorem buildField_composed (path name : String) (node : Node) (input : Object) (scope : Scope)
    (hinput : ∀ value, Object.value? input name = some value →
      Mentioned registry skip asked node value) :
    Composed registry skip asked (buildField path name node input scope) := by
  rw [buildField]
  split
  · next value hvalue =>
    have smaller := Object.sizeOf_lt_of_value?_eq_some hvalue
    refine buildValue_composed (joinPath path name) node (some value) scope fun found hfound => ?_
    cases hfound
    exact hinput value hvalue
  · split
    · exact Composed.checkReference.map
    · exact buildValue_composed (joinPath path name) node none scope fun _ h => by cases h
termination_by (sizeOf input, 1, 2 * sizeOf node + 1)
decreasing_by
  · exact Prod.Lex.left _ _ (by simpa using smaller)
  · have positive : 1 ≤ sizeOf input := by cases input <;> simp; omega
    rcases Nat.lt_or_eq_of_le positive with more | same
    · exact Prod.Lex.left _ _ (by simpa using more)
    · rw [← same]
      exact Prod.Lex.right _ (Prod.Lex.right _ (by omega))

/-- Applying a patch is composed of steps. -/
theorem mergeFields_composed (path : String) (fields : Fields) (target patch : Object)
    (scope : Scope) (reserved : List String)
    (hpatch : Mentioned registry skip asked (.nested fields) (.object patch)) :
    Composed registry skip asked (mergeFields path fields target patch scope reserved) := by
  match patch with
  | [] =>
    rw [mergeFields]
    exact .pure
  | (key, value) :: rest =>
    have hrest := fun target =>
      mergeFields_composed path fields target rest scope reserved hpatch.less_input
    rw [mergeFields]
    by_cases hreserved : reserved.contains key = true
    · rw [if_pos hreserved]
      exact hrest target
    rw [if_neg hreserved]
    split
    · next inner hinner =>
      have hvalue := hpatch.field (Fields.mem_of_node? hinner) List.mem_cons_self
      split
      · next nestedPatch =>
        exact (mergeFields_composed _ inner _ nestedPatch _ _ hvalue).bind fun _ => hrest _
      · exact .lift
    · next node _ hnode =>
      have hvalue := hpatch.field (Fields.mem_of_node? hnode) List.mem_cons_self
      refine (buildValue_composed _ node (some value) scope fun found hfound => ?_).bind
        fun built => ?_
      · cases hfound
        exact hvalue
      · cases built with
        | some built => exact hrest _
        | none => exact hrest _
    · by_cases hstrict : scope.strict = true
      · rw [if_pos hstrict]
        exact .lift
      · rw [if_neg hstrict]
        exact hrest _
termination_by (sizeOf patch, 1, 0)

theorem buildValue_composed (path : String) (node : Node) (value? : Option Value) (scope : Scope)
    (hvalue : ∀ value, value? = some value → Mentioned registry skip asked node value) :
    Composed registry skip asked (buildValue path node value? scope) := by
  match node with
  | .scalar _ _ =>
    unfold buildValue
    exact .lift
  | .array _ =>
    unfold buildValue
    exact buildUntyped_composed
  | .reference collection _ _ =>
    unfold buildValue
    split
    · exact absent_composed
    · exact keepNull_composed
    · exact (buildReference_composed path collection _ (hvalue _ rfl) rfl).map
  | .document collection _ =>
    unfold buildValue
    split
    · exact absent_composed
    · exact keepNull_composed
    · exact (embedDocument_composed path collection _ _ ((hvalue _ rfl).retarget rfl)).bind
        fun _ => .pure
    · exact .lift
  | .list element =>
    unfold buildValue
    split
    · exact .pure
    · exact .pure
    · exact (buildItems_composed path element _ scope (hvalue _ rfl).item).bind fun _ => .pure
    · exact .lift
  | .nested fields =>
    match value? with
    | none | some .null =>
      rw [buildValue]
      exact (buildFields_composed path fields [] _ _ .nothing).bind fun _ => .pure
    | some (.object input) =>
      rw [buildValue]
      exact (buildFields_composed path fields input _ _ (hvalue _ rfl)).bind fun _ => .pure
    | some (.bool _) | some (.number _) | some (.string _) | some (.array _) =>
      unfold buildValue
      exact .lift
termination_by (sizeOf value?, 1, 2 * sizeOf node)

theorem buildItems_composed (path : String) (element : Element) (items : List Value)
    (scope : Scope) (hitems : ∀ item ∈ items, Mentioned registry skip asked element.asNode item) :
    Composed registry skip asked (buildItems path element items scope) := by
  match element with
  | .any =>
    unfold buildItems
    exact .pure
  | .scalar _ _ =>
    unfold buildItems
    exact .lift
  | .reference collection kind =>
    rw [buildItems]
    exact (buildReferences_composed path collection kind 0 items hitems).bind fun _ => .pure
  | .document collection =>
    rw [buildItems]
    exact (buildDocuments_composed path collection 0 items scope hitems).bind fun _ => .pure
  | .object fields =>
    rw [buildItems]
    exact buildObjects_composed path fields 0 items scope hitems
  | .list inner =>
    rw [buildItems]
    exact buildRows_composed path inner 0 items scope hitems
termination_by (sizeOf items, 1, sizeOf element)

theorem buildReferences_composed (path collection : String) (kind : IdKind) (index : Nat)
    (items : List Value) (hitems : ∀ item ∈ items,
      Mentioned registry skip asked (.reference collection kind false) item) :
    Composed registry skip asked (buildReferences path collection index items) := by
  match items with
  | [] =>
    rw [buildReferences]
    exact .pure
  | item :: rest =>
    rw [buildReferences]
    obtain ⟨hfirst, hrest⟩ := List.forall_mem_cons.mp hitems
    refine (buildReference_composed _ collection item hfirst rfl).bind fun _ => ?_
    exact (buildReferences_composed path collection kind (index + 1) rest hrest).bind
      fun _ => .pure
termination_by (sizeOf items, 0, 0)

theorem buildDocuments_composed (path collection : String) (index : Nat) (items : List Value)
    (scope : Scope) (hitems : ∀ item ∈ items,
      Mentioned registry skip asked (.document collection false) item) :
    Composed registry skip asked (buildDocuments path collection index items scope) := by
  match items with
  | [] =>
    rw [buildDocuments]
    exact .pure
  | .object input :: rest =>
    rw [buildDocuments]
    obtain ⟨hfirst, hrest⟩ := List.forall_mem_cons.mp hitems
    refine (embedDocument_composed _ collection input _ hfirst).bind fun _ => ?_
    exact (buildDocuments_composed path collection (index + 1) rest scope hrest).bind
      fun _ => .pure
  | .null :: _ | .bool _ :: _ | .number _ :: _ | .string _ :: _ | .array _ :: _ =>
    unfold buildDocuments
    exact .lift
termination_by (sizeOf items, 0, 0)

theorem buildObjects_composed (path : String) (fields : Fields) (index : Nat)
    (items : List Value) (scope : Scope)
    (hitems : ∀ item ∈ items, Mentioned registry skip asked (.nested fields) item) :
    Composed registry skip asked (buildObjects path fields index items scope) := by
  match items with
  | [] =>
    rw [buildObjects]
    exact .pure
  | .object input :: rest =>
    rw [buildObjects]
    obtain ⟨hfirst, hrest⟩ := List.forall_mem_cons.mp hitems
    refine (buildFields_composed _ fields input _ _ hfirst).bind fun _ => ?_
    exact (buildObjects_composed path fields (index + 1) rest scope hrest).bind fun _ => .pure
  | .null :: _ | .bool _ :: _ | .number _ :: _ | .string _ :: _ | .array _ :: _ =>
    unfold buildObjects
    exact .lift
termination_by (sizeOf items, 0, 0)

theorem buildRows_composed (path : String) (element : Element) (index : Nat)
    (items : List Value) (scope : Scope)
    (hitems : ∀ item ∈ items, Mentioned registry skip asked (.list element) item) :
    Composed registry skip asked (buildRows path element index items scope) := by
  match items with
  | [] =>
    rw [buildRows]
    exact .pure
  | .array row :: rest =>
    rw [buildRows]
    obtain ⟨hfirst, hrest⟩ := List.forall_mem_cons.mp hitems
    refine (buildItems_composed _ element row scope hfirst.item).bind fun _ => ?_
    exact (buildRows_composed path element (index + 1) rest scope hrest).bind fun _ => .pure
  | .null :: _ | .bool _ :: _ | .number _ :: _ | .string _ :: _ | .object _ :: _ =>
    unfold buildRows
    exact .lift
termination_by (sizeOf items, 0, 0)

theorem buildReference_composed (path collection : String) (value : Value) {node : Node}
    {kind : IdKind} {required : Bool} (hvalue : Mentioned registry skip asked node value)
    (hnode : node = .reference collection kind required) :
    Composed registry skip asked (buildReference path collection value) := by
  unfold buildReference
  split_ifs with hreference
  · exact .checkReference
  · match value with
    | .object input =>
      have hstands : node.stands? input = some collection := by
        simp [hnode, Node.stands?, hreference]
      refine (embedDocument_composed path collection input none (hvalue.retarget hstands)).bind
        fun document => ?_
      split
      · exact .pure
      · exact .lift
    | .null | .bool _ | .number _ | .string _ | .array _ => exact .lift
termination_by (sizeOf value, 0, 0)

/-- Embedding a document is composed of steps. -/
theorem embedDocument_composed (path collection : String) (input : Object)
    (inject : Option Owner)
    (hinput : Mentioned registry skip asked (.document collection false) (.object input)) :
    Composed registry skip asked (embedDocument path collection input inject) :=
  .embed (hinput _ _ (.own rfl))
    (fun hskip tree htree path scope reserved =>
      buildFields_composed path tree.fields input scope reserved (hinput.inside rfl hskip htree))
    fun hskip tree htree path target scope reserved =>
      mergeFields_composed path tree.fields target input scope reserved
        (hinput.inside rfl hskip htree)
termination_by (sizeOf input, 4, 0)

end

end Builder

end Build

end DocumentDb
