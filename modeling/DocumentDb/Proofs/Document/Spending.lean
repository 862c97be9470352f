import DocumentDb.Proofs.Database.Runs
import DocumentDb.Proofs.Database.Updates
import DocumentDb.Proofs.Document.Embedding
import Mathlib.Data.Prod.Lex
import Mathlib.Order.WellFounded

/-!
# What building spends

The builder goes back and forth between the input and the schemas: an absent nested object is built
from nothing along the schema, and an object in the place of a document leads to the schema of
another collection, which may be the one around it again. `Job` lists what the functions of the
builder are called with, and `Job.Calls` which calls they make in turn. No chain of calls goes on
forever (`Job.wellFounded_calls`): each call goes into a smaller part of the input, or stays at the
same part and has less to do with it.

The same recursion bounds what comes up on the way. A document waits to be stored only where the
input has an object for it, and no object is built twice, so at most as many documents are added as
there are objects inside the input (`building_ends`).
-/

namespace DocumentDb

/-! ### Objects inside a value -/

mutual

/-- How many objects there are in a value, the value itself included. -/
def Value.objects : Value → Nat
  | .object fields => 1 + Value.fieldObjects fields
  | .array items => Value.itemObjects items
  | _ => 0

/-- How many objects there are in several values. -/
def Value.itemObjects : List Value → Nat
  | [] => 0
  | item :: rest => Value.objects item + Value.itemObjects rest

/-- How many objects there are in the values of fields. -/
def Value.fieldObjects : List (String × Value) → Nat
  | [] => 0
  | (_, value) :: rest => Value.objects value + Value.fieldObjects rest

end

/-- How many objects there are strictly inside a value. -/
def Value.objectsInside : Value → Nat
  | .object fields => Value.fieldObjects fields
  | other => other.objects

/-- How many objects there are in a value if there is one. -/
def Value.objectsOf (value? : Option Value) : Nat := value?.elim 0 Value.objects

/-- A value that stands for one of several names counts once at most. -/
theorem sum_ite_name_le {names : List String} (honce : names.Nodup) (key : String) (most : Nat) :
    (names.map fun name => if key = name then most else 0).sum ≤ most := by
  induction names with
  | nil => exact Nat.zero_le most
  | cons name rest ih =>
    obtain ⟨hfresh, hrest⟩ := List.nodup_cons.mp honce
    rw [List.map_cons, List.sum_cons]
    by_cases hname : key = name
    · have hothers : (rest.map fun name => if key = name then most else 0).sum = 0 := by
        refine List.sum_eq_zero fun count hcount => ?_
        obtain ⟨other, hin, rfl⟩ := List.mem_map.mp hcount
        refine if_neg fun hother => hfresh ?_
        rwa [← hname, hother]
      rw [if_pos hname, hothers, Nat.add_zero]
    · rw [if_neg hname, Nat.zero_add]
      exact ih hrest

/-- **Fields with different names share no objects.** -/
theorem Value.sum_objectsOf_le {names : List String} (honce : names.Nodup) (input : Object) :
    (names.map fun name => objectsOf (Object.value? input name)).sum ≤ fieldObjects input := by
  induction input with
  | nil =>
    refine (List.sum_eq_zero fun count hcount => ?_).le
    obtain ⟨name, -, rfl⟩ := List.mem_map.mp hcount
    rfl
  | cons field rest ih =>
    obtain ⟨key, value⟩ := field
    have hsplit : ∀ name, objectsOf (Object.value? ((key, value) :: rest) name) ≤
        (if key = name then value.objects else 0) + objectsOf (Object.value? rest name) := by
      intro name
      rw [Object.value?]
      split_ifs with hname
      · exact Nat.le_add_right _ _
      · exact Nat.le_add_left _ _
    have hown := sum_ite_name_le honce key value.objects
    calc (names.map fun name => objectsOf (Object.value? ((key, value) :: rest) name)).sum
        ≤ (names.map fun name => (if key = name then value.objects else 0) +
            objectsOf (Object.value? rest name)).sum :=
          List.sum_le_sum fun name _ => hsplit name
      _ = (names.map fun name => if key = name then value.objects else 0).sum +
            (names.map fun name => objectsOf (Object.value? rest name)).sum := List.sum_map_add
      _ ≤ value.objects + fieldObjects rest := Nat.add_le_add hown ih
      _ = fieldObjects ((key, value) :: rest) := by rw [fieldObjects]

namespace Build

/-! ### Jobs of the builder -/

/-- **A job of the builder**: which of its functions is called, with the arguments that its further
calls depend on. -/
inductive Job where
  | insert (collection : String) (input : Object)
  | update (collection : String) (patch : Object)
  | fields (fields : Fields) (input : Object)
  | merge (fields : Fields) (patch : Object)
  | value (node : Node) (value? : Option Value)
  | items (element : Element) (items : List Value)
  | reference (collection : String) (value : Value)
  | embed (collection : String) (input : Object)

namespace Job

/-- **The calls that a job makes**, whatever is stored and whatever was built before. -/
inductive Calls (registry : Registry) : Job → Job → Prop
  | inserted {collection : String} {input : Object} {tree : Tree}
    (htree : registry.tree? collection = some tree) :
    Calls registry (.insert collection input) (.fields tree.fields input)
  | updated {collection : String} {patch : Object} {tree : Tree}
    (htree : registry.tree? collection = some tree) :
    Calls registry (.update collection patch) (.merge tree.fields patch)
  | field {fields : Fields} {input : Object} {name : String} {node : Node}
    (hfield : (name, node) ∈ fields) :
    Calls registry (.fields fields input) (.value node (Object.value? input name))
  | entry {fields : Fields} {patch : Object} {key : String} {node : Node} {value : Value}
    (hnode : fields.node? key = some node) (hentry : (key, value) ∈ patch) :
    Calls registry (.merge fields patch) (.value node (some value))
  | nestedEntry {fields inner : Fields} {patch deeper : Object} {key : String}
    (hnode : fields.node? key = some (.nested inner)) (hentry : (key, .object deeper) ∈ patch) :
    Calls registry (.merge fields patch) (.merge inner deeper)
  | reference {collection : String} {kind : IdKind} {required : Bool} {value : Value} :
    Calls registry (.value (.reference collection kind required) (some value))
      (.reference collection value)
  | document {collection : String} {required : Bool} {input : Object} :
    Calls registry (.value (.document collection required) (some (.object input)))
      (.embed collection input)
  | list {element : Element} {items : List Value} :
    Calls registry (.value (.list element) (some (.array items))) (.items element items)
  | absentNested {fields : Fields} {value? : Option Value}
    (habsent : value? = none ∨ value? = some .null) :
    Calls registry (.value (.nested fields) value?) (.fields fields [])
  | nested {fields : Fields} {input : Object} :
    Calls registry (.value (.nested fields) (some (.object input))) (.fields fields input)
  | referenceItem {collection : String} {kind : IdKind} {items : List Value} {item : Value}
    (hitem : item ∈ items) :
    Calls registry (.items (.reference collection kind) items) (.reference collection item)
  | documentItem {collection : String} {items : List Value} {input : Object}
    (hitem : .object input ∈ items) :
    Calls registry (.items (.document collection) items) (.embed collection input)
  | objectItem {fields : Fields} {items : List Value} {input : Object}
    (hitem : .object input ∈ items) :
    Calls registry (.items (.object fields) items) (.fields fields input)
  | rowItem {inner : Element} {items row : List Value} (hitem : .array row ∈ items) :
    Calls registry (.items (.list inner) items) (.items inner row)
  | referenced {collection : String} {input : Object} :
    Calls registry (.reference collection (.object input)) (.embed collection input)
  | created {collection : String} {input : Object} :
    Calls registry (.embed collection input) (.insert collection input)
  | changed {collection : String} {input : Object} :
    Calls registry (.embed collection input) (.update collection input)

/-- The rank of a job: the size of its input, how far it is from the fields, and the size of its
part of the schema. -/
noncomputable def rank : Job → ℕ × ℕ × ℕ
  | .insert _ input => (sizeOf input, 2, 0)
  | .update _ patch => (sizeOf patch, 2, 0)
  | .fields declared input => (sizeOf input, 1, 2 * sizeOf declared + 1)
  | .merge _ patch => (sizeOf patch, 1, 0)
  | .value node value? => (sizeOf value?, 1, 2 * sizeOf node)
  | .items _ list => (sizeOf list, 1, 0)
  | .reference _ raw => (sizeOf raw, 1, 0)
  | .embed _ input => (sizeOf input, 3, 0)

/-- Ranks in order: the input counts first, the schema last. -/
def RankLt : ℕ × ℕ × ℕ → ℕ × ℕ × ℕ → Prop := Prod.Lex (· < ·) (Prod.Lex (· < ·) (· < ·))

theorem rankLt_of_input {a b : ℕ} {rest rest' : ℕ × ℕ} (h : a < b) : RankLt (a, rest) (b, rest') :=
  .left _ _ h

theorem wellFounded_rankLt : WellFounded RankLt :=
  WellFounded.prod_lex wellFounded_lt (WellFounded.prod_lex wellFounded_lt wellFounded_lt)

/-- **A call has a lower rank** than the job that makes it. -/
theorem Calls.rank_lt {registry : Registry} {job sub : Job} (h : job.Calls registry sub) :
    RankLt sub.rank job.rank := by
  cases h with
  | inserted | updated => exact .right _ (.left _ _ (by decide))
  | created | changed => exact .right _ (.left _ _ (by decide))
  | @field fields input name node hfield =>
    cases hvalue : Object.value? input name with
    | some value =>
      have hsmaller := Object.sizeOf_lt_of_value?_eq_some hvalue
      exact rankLt_of_input (by simpa using hsmaller)
    | none =>
      -- Nothing is left of the input, and the declaration of a field is smaller than all of them.
      have hnode : sizeOf node < sizeOf fields := by
        have hlt := List.sizeOf_lt_of_mem hfield
        simp only [Prod.mk.sizeOf_spec] at hlt
        omega
      have hpositive : 1 ≤ sizeOf input := by
        cases input <;> simp only [List.nil.sizeOf_spec, List.cons.sizeOf_spec] <;> omega
      rcases Nat.lt_or_eq_of_le hpositive with hmore | hsame
      · exact rankLt_of_input (by simpa using hmore)
      · simp only [rank, Option.none.sizeOf_spec, ← hsame]
        exact .right _ (.right _ (by omega))
  | entry _ hentry =>
    have hsmaller := List.sizeOf_lt_of_mem hentry
    refine rankLt_of_input ?_
    simp only [Prod.mk.sizeOf_spec, Option.some.sizeOf_spec] at hsmaller ⊢
    omega
  | nestedEntry _ hentry =>
    have hsmaller := List.sizeOf_lt_of_mem hentry
    refine rankLt_of_input ?_
    simp only [Prod.mk.sizeOf_spec, Value.object.sizeOf_spec] at hsmaller ⊢
    omega
  | reference => exact rankLt_of_input (by simp)
  | document => exact rankLt_of_input (by simp; omega)
  | list => exact rankLt_of_input (by simp; omega)
  | absentNested habsent =>
    rcases habsent with rfl | rfl
    · refine .right _ (.right _ ?_)
      simp only [Node.nested.sizeOf_spec]
      omega
    · exact rankLt_of_input (by simp)
  | nested => exact rankLt_of_input (by simp; omega)
  | referenceItem hitem => exact rankLt_of_input (List.sizeOf_lt_of_mem hitem)
  | documentItem hitem | objectItem hitem =>
    have hsmaller := List.sizeOf_lt_of_mem hitem
    refine rankLt_of_input ?_
    simp only [Value.object.sizeOf_spec] at hsmaller
    omega
  | rowItem hitem =>
    have hsmaller := List.sizeOf_lt_of_mem hitem
    refine rankLt_of_input ?_
    simp only [Value.array.sizeOf_spec] at hsmaller
    omega
  | referenced => exact rankLt_of_input (by simp)

/-- **No chain of calls goes on forever**, whatever the schemas are. -/
theorem wellFounded_calls (registry : Registry) :
    WellFounded fun sub job : Job => job.Calls registry sub :=
  Subrelation.wf (fun h => h.rank_lt) (InvImage.wf rank wellFounded_rankLt)

end Job

/-! ### Steps that add documents -/

section Steps
variable {α β : Type} {context : Context} {most : ℕ}

/-- **A step adds a number of documents at most** to what waits, whether it succeeds or fails. -/
def Adds (context : Context) (most : ℕ) (step : Build α) : Prop :=
  ∀ work, (step context work).2.pending.length ≤ work.pending.length + most

theorem Adds.mono {step : Build α} {least : ℕ} (h : Adds context least step) (hle : least ≤ most) :
    Adds context most step := fun work => by
  have := h work
  omega

theorem Adds.bind {first : Build α} {next : α → Build β} {least others : ℕ}
    (hfirst : Adds context least first) (hnext : ∀ a, Adds context others (next a))
    (hle : least + others ≤ most) : Adds context most (first >>= next) := by
  intro work
  have hbefore := hfirst work
  rw [bind_eq]
  rcases hstep : first context work with ⟨result, after⟩
  rw [hstep] at hbefore
  cases result with
  | error e =>
    dsimp only at hbefore ⊢
    omega
  | ok a =>
    have hafter := hnext a after
    dsimp only at hbefore ⊢
    omega

/-- A step that adds nothing comes first. -/
theorem Adds.after {first : Build α} {next : α → Build β} (hfirst : Adds context 0 first)
    (hnext : ∀ a, Adds context most (next a)) : Adds context most (first >>= next) :=
  hfirst.bind hnext (Nat.zero_add most).le

/-- Steps that add nothing come last. -/
theorem Adds.before {first : Build α} {next : α → Build β} (hfirst : Adds context most first)
    (hnext : ∀ a, Adds context 0 (next a)) : Adds context most (first >>= next) :=
  hfirst.bind hnext le_rfl

theorem Adds.map {step : Build α} {f : α → β} (h : Adds context most step) :
    Adds context most (f <$> step) := fun work => by
  rw [map_eq]
  exact h work

theorem pure_adds {a : α} : Adds context most (pure a) := fun _ => Nat.le_add_right _ _

theorem lift_adds {result : Except Error α} : Adds context most (lift result) := fun _ =>
  Nat.le_add_right _ _

theorem read_adds : Adds context 0 (read : Build Context) := fun _ => le_rfl

theorem get_adds : Adds context 0 (get : Build Work) := fun _ => le_rfl

theorem put_adds {space : IdSpace} : Adds context 0 (modify (·.put space) : Build Unit) :=
  fun _ => le_rfl

theorem tree_adds {collection : String} : Adds context 0 (tree collection) :=
  read_adds.after fun _ => lift_adds

/-- What follows the look at a schema may build on it. -/
theorem tree_bind_adds {collection : String} {next : Tree → Build β}
    (hnext : ∀ tree, context.registry.tree? collection = some tree →
      Adds context most (next tree)) : Adds context most (tree collection >>= next) := by
  intro work
  rw [bind_eq]
  have hstep : tree collection context work = (context.registry.tree collection, work) := rfl
  rw [hstep]
  cases htree : context.registry.tree collection with
  | error e => exact Nat.le_add_right _ _
  | ok tree => exact hnext tree (Registry.tree_ok_iff.mp htree) work

theorem space_adds {collection : String} : Adds context 0 (space collection) := by
  refine get_adds.after fun work => ?_
  split
  · exact pure_adds
  · refine tree_adds.after fun _ => read_adds.after fun _ => lift_adds.after fun _ => ?_
    exact put_adds.after fun _ => pure_adds

theorem newId_adds {path collection : String} {input : Object} :
    Adds context 0 (newId path collection input) := by
  have hgenerate : Adds context 0 (generateId collection) := by
    refine space_adds.after fun space => read_adds.after fun _ => get_adds.after fun _ => ?_
    have hdrawn : ∀ drawn,
        Adds context 0 (modify fun work => { work with drawn } : Build Unit) :=
      fun _ _ => le_rfl
    exact (hdrawn _).after fun _ => lift_adds.after fun _ => put_adds.after fun _ => pure_adds
  unfold newId
  split
  · exact hgenerate
  · exact hgenerate
  · exact space_adds.after fun _ => lift_adds.after fun _ => put_adds.after fun _ => pure_adds

theorem lookup_adds {collection : String} {id : DocId} :
    Adds context 0 (lookup collection id) := by
  refine get_adds.after fun work => ?_
  split
  · exact pure_adds
  · refine read_adds.after fun _ => lift_adds.after fun found => ?_
    split
    · exact pure_adds
    · exact lift_adds

theorem checkSize_adds {collection : String} {document : Document} :
    Adds context 0 (checkSize collection document) := by
  refine space_adds.after fun space => ?_
  dsimp only
  split_ifs
  · exact lift_adds
  · exact pure_adds

theorem checkReference_adds {path collection : String} {value : Value} :
    Adds context 0 (checkReference path collection value) :=
  space_adds.after fun _ => lift_adds

/-- The one step that lets a document wait. -/
theorem push_adds {collection : String} {document : Document} :
    Adds context 1 (push collection document) := fun work => by
  show (work.pending ++ [_]).length ≤ work.pending.length + 1
  rw [List.length_append, List.length_singleton]

theorem absent_adds {path : String} {required : Bool} :
    Adds context most (absent path required) := by
  unfold absent
  split_ifs
  · exact lift_adds
  · exact pure_adds

theorem keepNull_adds {path : String} {required : Bool} :
    Adds context most (keepNull path required) := by
  unfold keepNull
  split_ifs
  · exact lift_adds
  · exact pure_adds

theorem buildUntyped_adds {path : String} {rules : Rules} {value? : Option Value} :
    Adds context most (buildUntyped path rules value?) := by
  have hcheck : ∀ value, Adds context most (buildUntyped.check path rules value) := by
    intro value
    unfold buildUntyped.check
    split
    · exact lift_adds.after fun _ => pure_adds
    · exact lift_adds
  unfold buildUntyped
  split
  · exact pure_adds
  · exact hcheck _
  · exact hcheck _
  · exact absent_adds

end Steps

/-! ### What jobs spend -/

namespace Job

/-- **A job stays within its budget**, wherever it stands and whatever is built before: it adds at
most as many documents as there are objects in its input. -/
def Thrifty (context : Context) : Job → Prop
  | .insert collection input => ∀ path inject,
    Adds context (Value.fieldObjects input) (insertDocument path collection input inject)
  | .update collection patch => ∀ path existing,
    Adds context (Value.fieldObjects patch) (updateDocument path collection existing patch)
  | .fields declared input => ∀ path scope reserved,
    Adds context (Value.fieldObjects input) (buildFields path declared input scope reserved)
  | .merge declared patch => ∀ path target scope reserved,
    Adds context (Value.fieldObjects patch) (mergeFields path declared target patch scope reserved)
  | .value node value? => ∀ path scope,
    Adds context (Value.objectsOf value?) (buildValue path node value? scope)
  | .items element list => ∀ path scope,
    Adds context (Value.itemObjects list) (buildItems path element list scope)
  | .reference collection raw => ∀ path,
    Adds context raw.objects (buildReference path collection raw)
  | .embed collection input => ∀ path inject,
    Adds context (1 + Value.fieldObjects input) (embedDocument path collection input inject)

/-- The part of the schema that a job works along is proper. -/
def Proper : Job → Prop
  | .fields declared _ => (Node.nested declared).Proper
  | .merge declared _ => (Node.nested declared).Proper
  | .value node _ => node.Proper
  | .items element _ => element.asNode.Proper
  | _ => True

theorem Calls.proper {registry : Registry} (hregistry : registry.Proper) {job sub : Job}
    (h : job.Calls registry sub) (hjob : job.Proper) : sub.Proper := by
  cases h with
  | inserted htree | updated htree => exact (hregistry.tree? htree).fields
  | field hfield => exact Node.Proper.field hjob _ hfield
  | entry hnode | nestedEntry hnode => exact Node.Proper.field hjob _ (Fields.mem_of_node? hnode)
  | list => exact Node.Proper.element hjob
  | absentNested | nested | objectItem => exact hjob
  | rowItem => exact Node.Proper.element hjob
  | reference | document | referenceItem | documentItem | referenced | created | changed => trivial

end Job

section Lists
variable {context : Context} {path collection : String} {scope : Scope}

theorem buildDeclared_adds {fields : Fields} {input : Object}
    (hfield : ∀ name node, (name, node) ∈ fields → ∀ path scope,
      Adds context (Value.objectsOf (Object.value? input name))
        (buildValue path node (Object.value? input name) scope)) :
    Adds context (fields.names.map fun name => Value.objectsOf (Object.value? input name)).sum
      (buildDeclared path fields input scope) := by
  induction fields with
  | nil =>
    rw [buildDeclared]
    exact pure_adds
  | cons field rest ih =>
    obtain ⟨name, node⟩ := field
    have hfirst : Adds context (Value.objectsOf (Object.value? input name))
        (buildField path name node input scope) := by
      have hvalue := hfield name node List.mem_cons_self
      rw [buildField]
      split
      · next value hsome => exact hsome ▸ hvalue _ _
      · next hnone =>
        split
        · exact (checkReference_adds.mono (Nat.zero_le _)).map
        · exact hnone ▸ hvalue _ _
    rw [buildDeclared]
    refine hfirst.bind (fun built => Adds.before (ih fun name node hin =>
      hfield name node (List.mem_cons_of_mem _ hin)) fun others => pure_adds) ?_
    exact le_of_eq List.sum_cons.symm

theorem mergeFields_adds {fields : Fields} {target patch : Object} {reserved : List String}
    (hvalue : ∀ key node value, fields.node? key = some node → (key, value) ∈ patch →
      ∀ path scope, Adds context value.objects (buildValue path node (some value) scope))
    (hnested : ∀ (key : String) (inner : Fields) deeper, fields.node? key = some (.nested inner) →
      (key, .object deeper) ∈ patch → ∀ path target scope reserved,
        Adds context (Value.fieldObjects deeper)
          (mergeFields path inner target deeper scope reserved)) :
    Adds context (Value.fieldObjects patch)
      (mergeFields path fields target patch scope reserved) := by
  induction patch generalizing target with
  | nil =>
    rw [mergeFields]
    exact pure_adds
  | cons entry rest ih =>
    obtain ⟨key, value⟩ := entry
    have hrest : ∀ target, Adds context (Value.fieldObjects rest)
        (mergeFields path fields target rest scope reserved) := fun target =>
      ih (fun key node value hnode hin => hvalue key node value hnode (List.mem_cons_of_mem _ hin))
        fun key inner deeper hnode hin =>
          hnested key inner deeper hnode (List.mem_cons_of_mem _ hin)
    have hmore : Value.fieldObjects rest ≤ Value.fieldObjects ((key, value) :: rest) :=
      Nat.le_add_left _ _
    rw [mergeFields]
    by_cases hreserved : reserved.contains key = true
    · rw [if_pos hreserved]
      exact (hrest target).mono hmore
    rw [if_neg hreserved]
    split
    · next inner hnode =>
      split
      · next deeper =>
        refine (hnested key inner deeper hnode List.mem_cons_self _ _ _ _).bind
          (fun merged => hrest _) ?_
        rw [Value.fieldObjects, Value.objects]
        omega
      · exact lift_adds
    · next node _ hnode =>
      refine (hvalue key node value hnode List.mem_cons_self _ _).bind (fun built => ?_) le_rfl
      cases built with
      | some built => exact hrest _
      | none => exact hrest _
    · by_cases hstrict : scope.strict = true
      · rw [if_pos hstrict]
        exact lift_adds
      · rw [if_neg hstrict]
        exact (hrest _).mono hmore

theorem buildReferences_adds {items : List Value} {index : ℕ} (hitem : ∀ item ∈ items, ∀ path,
      Adds context item.objects (buildReference path collection item)) :
    Adds context (Value.itemObjects items) (buildReferences path collection index items) := by
  induction items generalizing index with
  | nil =>
    rw [buildReferences]
    exact pure_adds
  | cons item rest ih =>
    obtain ⟨hfirst, hrest⟩ := List.forall_mem_cons.mp hitem
    rw [buildReferences]
    exact (hfirst _).bind (fun first => (ih hrest).before fun others => pure_adds) le_rfl

theorem buildDocuments_adds {items : List Value} {index : ℕ}
    (hitem : ∀ input, .object input ∈ items → ∀ path inject,
      Adds context (1 + Value.fieldObjects input) (embedDocument path collection input inject)) :
    Adds context (Value.itemObjects items)
      (buildDocuments path collection index items scope) := by
  induction items generalizing index with
  | nil =>
    rw [buildDocuments]
    exact pure_adds
  | cons item rest ih =>
    have hrest := fun input hin => hitem input (List.mem_cons_of_mem _ hin)
    cases item with
    | object input =>
      rw [buildDocuments]
      exact (hitem input List.mem_cons_self _ _).bind
        (fun first => (ih hrest).before fun others => pure_adds) le_rfl
    | _ =>
      unfold buildDocuments
      exact lift_adds

theorem buildObjects_adds {fields : Fields} {items : List Value} {index : ℕ}
    (hitem : ∀ input, .object input ∈ items → ∀ path scope reserved,
      Adds context (Value.fieldObjects input) (buildFields path fields input scope reserved)) :
    Adds context (Value.itemObjects items) (buildObjects path fields index items scope) := by
  induction items generalizing index with
  | nil =>
    rw [buildObjects]
    exact pure_adds
  | cons item rest ih =>
    have hrest := fun input hin => hitem input (List.mem_cons_of_mem _ hin)
    cases item with
    | object input =>
      rw [buildObjects]
      refine (hitem input List.mem_cons_self _ _ _).bind
        (fun first => (ih hrest).before fun others => pure_adds) ?_
      rw [Value.itemObjects, Value.objects]
      omega
    | _ =>
      unfold buildObjects
      exact lift_adds

theorem buildRows_adds {element : Element} {items : List Value} {index : ℕ}
    (hitem : ∀ row, .array row ∈ items → ∀ path scope,
      Adds context (Value.itemObjects row) (buildItems path element row scope)) :
    Adds context (Value.itemObjects items) (buildRows path element index items scope) := by
  induction items generalizing index with
  | nil =>
    rw [buildRows]
    exact pure_adds
  | cons item rest ih =>
    have hrest := fun row hin => hitem row (List.mem_cons_of_mem _ hin)
    cases item with
    | array row =>
      rw [buildRows]
      refine (hitem row List.mem_cons_self _ _).bind
        (fun first => (ih hrest).before fun others => pure_adds) ?_
      rw [Value.itemObjects, Value.objects]
    | _ =>
      unfold buildRows
      exact lift_adds

end Lists

namespace Job

section Thrift
variable {context : Context}

theorem insert_thrifty {collection : String} {input : Object}
    (hfields : ∀ tree, context.registry.tree? collection = some tree →
      Thrifty context (.fields tree.fields input)) :
    Thrifty context (.insert collection input) := by
  intro path inject
  rw [insertDocument]
  refine tree_bind_adds fun tree htree => newId_adds.after fun id => ?_
  refine Adds.before (hfields tree htree _ _ _) fun fields => read_adds.after fun _ => ?_
  exact checkSize_adds.after fun _ => pure_adds

theorem update_thrifty {collection : String} {patch : Object}
    (hmerge : ∀ tree, context.registry.tree? collection = some tree →
      Thrifty context (.merge tree.fields patch)) :
    Thrifty context (.update collection patch) := by
  intro path existing
  rw [updateDocument]
  refine tree_bind_adds fun tree htree => ?_
  split
  · exact lift_adds
  · refine lift_adds.after fun _ => ?_
    refine Adds.before (hmerge tree htree _ _ _ _) fun merged => read_adds.after fun _ => ?_
    exact checkSize_adds.after fun _ => pure_adds

theorem value_thrifty {node : Node} {value? : Option Value}
    (hcalls : ∀ sub, (Job.value node value?).Calls context.registry sub → sub.Thrifty context) :
    Thrifty context (.value node value?) := by
  intro path scope
  unfold buildValue
  cases node with
  | scalar => exact lift_adds
  | array => exact buildUntyped_adds
  | reference collection kind required =>
    cases value? with
    | none => exact absent_adds
    | some raw =>
      cases raw with
      | null => exact keepNull_adds
      | _ => exact Adds.map (hcalls _ .reference path)
  | document collection required =>
    cases value? with
    | none => exact absent_adds
    | some raw =>
      cases raw with
      | null => exact keepNull_adds
      | object input => exact Adds.before (hcalls _ .document path _) fun _ => pure_adds
      | _ => exact lift_adds
  | list element =>
    cases value? with
    | none => exact pure_adds
    | some raw =>
      cases raw with
      | null => exact pure_adds
      | array items => exact Adds.before (hcalls _ .list path scope) fun _ => pure_adds
      | _ => exact lift_adds
  | nested fields =>
    cases value? with
    | none => exact Adds.before (hcalls _ (.absentNested (.inl rfl)) path _ _) fun _ => pure_adds
    | some raw =>
      cases raw with
      | null => exact Adds.before (hcalls _ (.absentNested (.inr rfl)) path _ _) fun _ => pure_adds
      | object input =>
        refine (Adds.before (hcalls _ .nested path _ _) fun _ => pure_adds).mono ?_
        exact Nat.le_add_left _ _
      | _ => exact lift_adds

theorem items_thrifty {element : Element} {items : List Value}
    (hcalls : ∀ sub, (Job.items element items).Calls context.registry sub → sub.Thrifty context) :
    Thrifty context (.items element items) := by
  intro path scope
  unfold buildItems
  cases element with
  | any => exact pure_adds
  | scalar => exact lift_adds
  | reference collection kind =>
    refine Adds.before (buildReferences_adds fun item hin => ?_) fun _ => pure_adds
    exact hcalls _ (.referenceItem hin)
  | document collection =>
    refine Adds.before (buildDocuments_adds fun input hin => ?_) fun _ => pure_adds
    exact hcalls _ (.documentItem hin)
  | object fields => exact buildObjects_adds fun input hin => hcalls _ (.objectItem hin)
  | list inner => exact buildRows_adds fun row hin => hcalls _ (.rowItem hin)

theorem reference_thrifty {collection : String} {raw : Value}
    (hcalls : ∀ sub, (Job.reference collection raw).Calls context.registry sub →
      sub.Thrifty context) : Thrifty context (.reference collection raw) := by
  intro path
  unfold buildReference
  split_ifs
  · exact checkReference_adds.mono (Nat.zero_le _)
  · cases raw with
    | object input =>
      refine Adds.before (hcalls _ .referenced path none) fun document => ?_
      split
      · exact pure_adds
      · exact lift_adds
    | _ => exact lift_adds

/-- An embedded document lets at most one document wait, besides those of its fields. -/
theorem embed_thrifty {collection : String} {input : Object}
    (hinsert : Thrifty context (.insert collection input))
    (hupdate : Thrifty context (.update collection input)) :
    Thrifty context (.embed collection input) := by
  intro path inject
  have hcreate : Adds context (1 + Value.fieldObjects input)
      (createEmbedded path collection input inject) := by
    rw [createEmbedded]
    refine (hinsert path inject).bind (fun document => push_adds.before fun _ => pure_adds) ?_
    omega
  rw [embedDocument]
  split
  · exact hcreate
  · exact hcreate
  · refine space_adds.after fun space => lift_adds.after fun id => ?_
    split_ifs
    · refine lookup_adds.after fun stored => ?_
      split_ifs
      · exact pure_adds
      · refine (hupdate path stored).bind (fun document => push_adds.before fun _ => pure_adds) ?_
        omega
    · exact hcreate

/-- A job is thrifty if the jobs that it calls are. -/
theorem thrifty_of_calls {job : Job} (hproper : job.Proper)
    (hcalls : ∀ sub, job.Calls context.registry sub → sub.Thrifty context) :
    job.Thrifty context := by
  cases job with
  | insert => exact insert_thrifty fun tree htree => hcalls _ (.inserted htree)
  | update => exact update_thrifty fun tree htree => hcalls _ (.updated htree)
  | fields declared input =>
    intro path scope reserved
    rw [buildFields]
    refine Adds.before ((buildDeclared_adds fun name node hfield =>
      hcalls _ (.field hfield)).mono ?_) fun _ => lift_adds.after fun _ => pure_adds
    exact Value.sum_objectsOf_le (Node.Proper.names hproper) input
  | merge =>
    intro path target scope reserved
    refine mergeFields_adds (fun key node value hnode hin => hcalls _ (.entry hnode hin)) ?_
    exact fun key inner deeper hnode hin => hcalls _ (.nestedEntry hnode hin)
  | value => exact value_thrifty hcalls
  | items => exact items_thrifty hcalls
  | reference => exact reference_thrifty hcalls
  | embed => exact embed_thrifty (hcalls _ .created) (hcalls _ .changed)

/-- **Every job is thrifty.** -/
theorem thrifty (hregistry : context.registry.Proper) (job : Job) (hproper : job.Proper) :
    job.Thrifty context := by
  induction job using (wellFounded_calls context.registry).induction with
  | _ job ih =>
    refine thrifty_of_calls hproper fun sub hsub => ?_
    exact ih sub hsub (hsub.proper hregistry hproper)

end Thrift

end Job

end Build

/-- **Building ends and spends at most one document for each object of the input.** The calls of
the builder get nowhere forever, whatever collections embed or refer to each other or themselves,
and creating or changing a document lets no more documents wait than there are objects strictly
inside the raw input, whatever is stored and whether it succeeds or fails. -/
theorem building_ends {context : Context} (hregistry : context.registry.Compiled) :
    (WellFounded fun sub job : Build.Job => job.Calls context.registry sub) ∧
    ∀ (work : Work) (collection : String) (raw : Value),
      (Build.create collection raw context work).2.pending.length ≤
        work.pending.length + raw.objectsInside ∧
      ∀ existing, (Build.change collection existing raw context work).2.pending.length ≤
        work.pending.length + raw.objectsInside := by
  refine ⟨Build.Job.wellFounded_calls _, fun work collection raw => ⟨?_, fun existing => ?_⟩⟩
  · rw [Build.create]
    cases raw with
    | object input =>
      have hthrifty : Build.Job.Thrifty context (.insert collection input) :=
        Build.Job.thrifty hregistry.proper _ trivial
      exact hthrifty "" none work
    | _ => exact Nat.le_add_right _ _
  · rw [Build.change]
    cases raw with
    | object patch =>
      have hthrifty : Build.Job.Thrifty context (.update collection patch) :=
        Build.Job.thrifty hregistry.proper _ trivial
      exact hthrifty "" existing work
    | _ => exact Nat.le_add_right _ _

/-- Someone new with a new friend who has a new friend. -/
def friendChain : Value := .object [("friend", .object [("friend", .object [])])]

/-- What is looked at while people are built in an empty store. -/
def friendContext : Context := friendDatabase.context ⟨0, 0⟩ nobody.store

/-- People embed people, and two friends in a chain let two documents wait, as many as the chain may
spend. -/
theorem friendChain_ends :
    (Build.create "people" friendChain friendContext {}).1.isOk = true ∧
    (Build.create "people" friendChain friendContext {}).2.pending.length = 2 ∧
    friendChain.objectsInside = 2 ∧
    (Build.create "people" friendChain friendContext {}).2.pending.length ≤
      ({} : Work).pending.length + friendChain.objectsInside := by
  obtain ⟨-, hspends⟩ := @building_ends friendContext friends_compiled
  exact ⟨by cbv, by cbv, by decide, (hspends {} "people" friendChain).1⟩

end DocumentDb
