import DocumentDb.Proofs.Document.Composition
import Mathlib.Data.List.Infix

/-!
# Building only appends

Whatever is built, and whether it succeeds or fails: the documents that waited before still wait, in
their order, before those that came up on the way. Nothing is assumed of the work or of the store.
-/

namespace DocumentDb

namespace Build

/-! ### Single steps -/

section Single
variable {α β : Type} {context : Context} {work : Work}

/-- **A step only appends** to what waits. -/
def Appends (context : Context) (step : Build α) : Prop :=
  ∀ work, work.pending <+: (step context work).2.pending

theorem Appends.bind {first : Build α} {next : α → Build β} (hfirst : Appends context first)
    (hnext : ∀ a, Appends context (next a)) : Appends context (first >>= next) := by
  intro work
  have hbefore := hfirst work
  rw [bind_eq]
  rcases hstep : first context work with ⟨result, after⟩
  rw [hstep] at hbefore
  cases result with
  | error e => exact hbefore
  | ok a => exact hbefore.trans (hnext a after)

/-- What waits after a step waits after all that follows. -/
theorem pending_bind {first : Build α} {next : α → Build β}
    (hnext : ∀ a, Appends context (next a)) :
    (first context work).2.pending <+: ((first >>= next) context work).2.pending := by
  rw [bind_eq]
  rcases first context work with ⟨result, after⟩
  cases result with
  | error e => exact List.prefix_rfl
  | ok a => exact hnext a after

theorem pending_map {step : Build α} {f : α → β} :
    ((f <$> step) context work).2.pending = (step context work).2.pending := by
  rw [map_eq]

theorem pure_appends {a : α} : Appends context (pure a) := fun _ => List.prefix_rfl

theorem read_appends : Appends context (read : Build Context) := fun _ => List.prefix_rfl

theorem get_appends : Appends context (get : Build Work) := fun _ => List.prefix_rfl

theorem lift_appends {result : Except Error α} : Appends context (lift result) := fun _ =>
  List.prefix_rfl

theorem put_appends {space : IdSpace} : Appends context (modify (·.put space) : Build Unit) :=
  fun _ => List.prefix_rfl

theorem tree_appends {collection : String} : Appends context (tree collection) :=
  read_appends.bind fun _ => lift_appends

/-- What follows the look at a schema may build on it. -/
theorem tree_bind_appends {collection : String} {next : Tree → Build β}
    (hnext : ∀ tree, context.registry.tree? collection = some tree → Appends context (next tree)) :
    Appends context (tree collection >>= next) := by
  intro work
  rw [bind_eq]
  have hstep : tree collection context work = (context.registry.tree collection, work) := rfl
  rw [hstep]
  cases htree : context.registry.tree collection with
  | error e => exact List.prefix_rfl
  | ok tree => exact hnext tree (Registry.tree_ok_iff.mp htree) work

theorem space_appends {collection : String} : Appends context (space collection) := by
  refine get_appends.bind fun work => ?_
  split
  · exact pure_appends
  · refine tree_appends.bind fun _ => read_appends.bind fun _ => lift_appends.bind fun _ => ?_
    exact put_appends.bind fun _ => pure_appends

theorem generateId_appends {collection : String} : Appends context (generateId collection) := by
  refine space_appends.bind fun space => read_appends.bind fun _ => get_appends.bind fun _ => ?_
  have hdrawn : ∀ drawn,
      Appends context (modify fun work => { work with drawn } : Build Unit) :=
    fun _ _ => List.prefix_rfl
  refine (hdrawn _).bind fun _ => lift_appends.bind fun taken => ?_
  exact put_appends.bind fun _ => pure_appends

theorem claimId_appends {collection field : String} {value : Value} :
    Appends context (claimId collection field value) := by
  refine space_appends.bind fun _ => lift_appends.bind fun taken => ?_
  exact put_appends.bind fun _ => pure_appends

theorem newId_appends {path collection : String} {input : Object} :
    Appends context (newId path collection input) := by
  unfold newId
  split
  · exact generateId_appends
  · exact generateId_appends
  · exact claimId_appends

theorem lookup_appends {collection : String} {id : DocId} :
    Appends context (lookup collection id) := by
  refine get_appends.bind fun work => ?_
  split
  · exact pure_appends
  · refine read_appends.bind fun _ => lift_appends.bind fun found => ?_
    split
    · exact pure_appends
    · exact lift_appends

theorem push_appends {collection : String} {document : Document} :
    Appends context (push collection document) := fun _ => List.prefix_append _ _

theorem checkSize_appends {collection : String} {document : Document} :
    Appends context (checkSize collection document) := by
  refine space_appends.bind fun space => ?_
  dsimp only
  split_ifs
  · exact lift_appends
  · exact pure_appends

end Single

/-! ### The builder -/

section Builder
variable {α : Type} {context : Context} {path collection : String} {input : Object}

/-- Creating a document only appends if building its fields does. -/
theorem createEmbedded_appends {inject : Option Owner}
    (hfields : ∀ tree, context.registry.tree? collection = some tree → ∀ path scope reserved,
      Appends context (buildFields path tree.fields input scope reserved)) :
    Appends context (createEmbedded path collection input inject) := by
  rw [createEmbedded, insertDocument]
  refine Appends.bind (tree_bind_appends fun tree htree => newId_appends.bind fun id => ?_)
    fun document => push_appends.bind fun _ => pure_appends
  refine (hfields tree htree _ _ _).bind fun fields => read_appends.bind fun _ => ?_
  exact checkSize_appends.bind fun _ => pure_appends

/-- Changing a document only appends if applying the patch does. -/
theorem updateDocument_appends {existing : Document}
    (hfields : ∀ tree, context.registry.tree? collection = some tree → ∀ path target scope reserved,
      Appends context (mergeFields path tree.fields target input scope reserved)) :
    Appends context (updateDocument path collection existing input) := by
  rw [updateDocument]
  refine tree_bind_appends fun tree htree => ?_
  split
  · exact lift_appends
  · refine lift_appends.bind fun _ => (hfields tree htree _ _ _ _).bind fun merged => ?_
    exact read_appends.bind fun _ => checkSize_appends.bind fun _ => pure_appends

/-- **All that is built only appends.** -/
theorem Composed.appends {step : Build α}
    (h : Composed context.registry (fun _ _ => False) (fun _ _ => True) step) :
    Appends context step := by
  induction h with
  | lift => exact lift_appends
  | bind _ _ hfirst hnext => exact hfirst.bind hnext
  | checkReference => exact space_appends.bind fun _ => lift_appends
  | embed _ _ _ hnew hchanged =>
    rw [embedDocument]
    have hcreate : ∀ path inject, Appends context (createEmbedded path _ _ inject) :=
      fun path inject => createEmbedded_appends (hnew not_false)
    split
    · exact hcreate _ _
    · exact hcreate _ _
    · refine space_appends.bind fun space => lift_appends.bind fun id => ?_
      split_ifs
      · refine lookup_appends.bind fun stored => ?_
        split_ifs
        · exact pure_appends
        · refine (updateDocument_appends (hchanged not_false)).bind fun _ => ?_
          exact push_appends.bind fun _ => pure_appends
      · exact hcreate _ _

theorem buildDeclared_appends {fields : Fields} {scope : Scope} :
    Appends context (buildDeclared path fields input scope) :=
  (buildDeclared_composed _ _ _ _ fun _ _ _ => trivial).appends

theorem buildValue_appends {node : Node} {value? : Option Value} {scope : Scope} :
    Appends context (buildValue path node value? scope) :=
  (buildValue_composed _ _ _ _ fun _ _ _ _ _ => trivial).appends

theorem mergeFields_appends {fields : Fields} {target : Object} {scope : Scope}
    {reserved : List String} :
    Appends context (mergeFields path fields target input scope reserved) :=
  (mergeFields_composed _ _ _ _ _ _ fun _ _ _ => trivial).appends

section Items
variable {index : Nat} {items : List Value} {scope : Scope}

theorem buildReferences_appends : Appends context (buildReferences path collection index items) :=
  (buildReferences_composed _ _ .incr _ _ fun _ _ _ _ _ => trivial).appends

theorem buildDocuments_appends :
    Appends context (buildDocuments path collection index items scope) :=
  (buildDocuments_composed _ _ _ _ _ fun _ _ _ _ _ => trivial).appends

theorem buildObjects_appends {fields : Fields} :
    Appends context (buildObjects path fields index items scope) :=
  (buildObjects_composed _ _ _ _ _ fun _ _ _ _ _ => trivial).appends

theorem buildRows_appends {element : Element} :
    Appends context (buildRows path element index items scope) :=
  (buildRows_composed _ _ _ _ _ fun _ _ _ _ _ => trivial).appends

end Items

end Builder

end Build

end DocumentDb
