import DocumentDb.Proofs.Database.Refusals
import DocumentDb.Proofs.Database.Runs
import DocumentDb.Proofs.Document.Resolution

/-!
# Closed databases

A compiled schema is closed: what it names is there, whatever the order of the definitions. So no
operation on a collection of the database ever ends with the error of an unknown collection, for any
input and any state of the store (`registry_closed`). All that is asked of the store is that it does
not give this error itself, and neither of the two stores does.
-/

namespace DocumentDb

/-- The error of an unknown collection. -/
inductive Error.Unknown : Error → Prop
  | collection {name : String} : Unknown (.unknownCollection name)

theorem Error.OfInput.known {e : Error} (h : e.OfInput) : ¬ e.Unknown := by
  rintro ⟨⟩
  cases h

theorem error_of_map {α β : Type} {result : Except Error α} {f : α → β} {e : Error}
    (h : result.map f = .error e) : result = .error e := by
  cases result with
  | error found =>
    cases h
    rfl
  | ok a => cases h

/-! ### Replacing references -/

section Populate
variable {registry : Registry} {fetch : Fetch}

/-- Where a path leads next, if it leads anywhere, there are fields that resolve. -/
theorem Hop.next?_closed (hclosed : registry.Closed) {node : Node}
    (hnode : node.Throughout (Node.Resolves registry)) {hop : Hop} {inner : Except Error Fields}
    (h : Hop.next? registry node = some (hop, inner)) :
    ∃ fields, inner = .ok fields ∧ fields.Closed registry := by
  have hdocument : ∀ collection, (∃ tree, registry.tree? collection = some tree) →
      ∃ fields, (registry.tree collection).map (·.fields) = .ok fields ∧
        fields.Closed registry := by
    rintro collection ⟨tree, htree⟩
    refine ⟨tree.fields, ?_, hclosed.tree? htree⟩
    rw [Registry.tree_ok_iff.mpr htree]
    rfl
  unfold Hop.next? at h
  split at h
  · cases h
    exact ⟨_, rfl, hnode.field⟩
  · cases h
    exact hdocument _ hnode.self
  · cases h
    exact ⟨_, rfl, hnode.item.field⟩
  · cases h
    exact hdocument _ hnode.item.self
  · cases h

theorem planHops_blames (hclosed : registry.Closed) {path : String} (segments : List String)
    {fields : Fields} (hfields : fields.Closed registry) :
    Blames (planHops registry path fields segments) := by
  induction segments generalizing fields with
  | nil => exact blames_pure
  | cons name rest ih =>
    cases rest with
    | nil =>
      unfold planHops
      split
      · exact blames_pure
      · exact blames_error .query
    | cons second rest =>
      unfold planHops
      split
      · next hop inner hnext =>
        obtain ⟨node, hnode, hhop⟩ := Option.bind_eq_some_iff.mp hnext
        obtain ⟨declared, rfl, hdeclared⟩ :=
          Hop.next?_closed hclosed (hfields _ (Fields.mem_of_node? hnode)) hhop
        exact (ih hdeclared).bind fun _ => blames_pure
      · exact blames_error .query

/-- The error is one that looking up a document has ended with. -/
def FetchFails (fetch : Fetch) (e : Error) : Prop := ∃ collection id, fetch collection id = .error e

theorem resolveReference_fails {collection : String} {value : Value} {e : Error}
    (h : resolveReference fetch collection value = .error e) : FetchFails fetch e := by
  unfold resolveReference at h
  split at h
  · cases h
  · next id _ =>
    rcases bind_error_iff.mp h with hfetch | ⟨found, -, h⟩
    · exact ⟨collection, id, hfetch⟩
    · split at h <;> cases h

theorem followHops_fails (hops : List (String × Hop)) {fields : Object} {e : Error}
    (h : followHops fetch hops fields = .error e) : FetchFails fetch e := by
  induction hops generalizing fields with
  | nil => cases h
  | cons step rest ih =>
    obtain ⟨name, hop⟩ := step
    rw [followHops] at h
    split at h
    · cases h
    · next value _ =>
      have hput : ∀ {inner : Except Error Value}, (inner.bind fun value =>
          pure (fields.put name value)) = .error e → inner = .error e := by
        intro inner hinner
        rcases bind_error_iff.mp hinner with hinner | ⟨_, -, hdone⟩
        · exact hinner
        · cases hdone
      dsimp only at h
      split at h
      · exact resolveReference_fails (hput h)
      · obtain ⟨item, -, hitem⟩ := exists_of_mapM_error (error_of_map (hput h))
        exact resolveReference_fails hitem
      · exact ih (error_of_map (hput h))
      · obtain ⟨item, -, hitem⟩ := exists_of_mapM_error (error_of_map (hput h))
        split at hitem
        · exact ih (error_of_map hitem)
        · cases hitem
      · cases h

/-- **Replacing references** fails because of the path, or because looking up a document fails. -/
theorem populate_fails (hclosed : registry.Closed) {tree : Tree}
    (hfields : tree.fields.Closed registry) (paths : List String) {documents : List Document}
    {e : Error} (h : populate registry fetch tree paths documents = .error e) :
    e.OfInput ∨ FetchFails fetch e := by
  induction paths generalizing documents with
  | nil => cases h
  | cons path rest ih =>
    rcases bind_error_iff.mp h with hpath | ⟨populated, -, h⟩
    · rcases bind_error_iff.mp hpath with hplan | ⟨hops, -, hpath⟩
      · exact Or.inl (planHops_blames hclosed _ hfields e hplan)
      · obtain ⟨document, -, hdocument⟩ := exists_of_mapM_error hpath
        exact Or.inr (followHops_fails hops hdocument)
    · exact ih h

end Populate

/-! ### Stores -/

/-- **A store does not know which collections there are**: it never gives the error of an unknown
one. -/
structure Backend.Neutral {σ : Type} (backend : Backend σ) : Prop where
  state : ∀ store collection e, backend.state store collection = .error e → ¬ e.Unknown
  fetch : ∀ store collection id e, backend.fetch store collection id = .error e → ¬ e.Unknown
  all : ∀ store collection e, backend.all store collection = .error e → ¬ e.Unknown
  persist : ∀ collection documents store, Ensures (backend.persist collection documents) store
    (fun _ _ => True) fun e _ => ¬ e.Unknown
  remove : ∀ collection ids store, Ensures (backend.remove collection ids) store
    (fun _ _ => True) fun e _ => ¬ e.Unknown
  record : ∀ collection count store, Ensures (backend.record collection count) store
    (fun _ _ => True) fun e _ => ¬ e.Unknown

theorem idsOf_blames (documents : List Document) : Blames (idsOf documents) := by
  induction documents with
  | nil => exact blames_pure
  | cons document rest ih =>
    unfold idsOf
    split
    · exact blames_error .violation
    · exact ih.bind fun _ => blames_pure

theorem MemoryStore.backend_neutral : MemoryStore.backend.Neutral where
  state store collection e h := ((idsOf_blames _).bind fun _ => blames_pure) e h |>.known
  fetch _ _ _ _ h := by cases h
  all _ _ _ h := by cases h
  persist _ _ _ := trivial
  remove _ _ _ := trivial
  record _ _ _ := trivial

namespace FileStore

theorem Fails.known {overfull : Prop} {e : Error} (h : Fails overfull e) : ¬ e.Unknown := by
  rintro ⟨⟩
  cases h

theorem documents_known {directory : Directory} {collection : String} {e : Error}
    (h : documents directory collection = .error e) : ¬ e.Unknown :=
  (documents_fails h : Fails False e).known

theorem counter_known {directory : Directory} {collection : String} {e : Error}
    (h : counter directory collection = .error e) : ¬ e.Unknown := by
  unfold counter at h
  dsimp only at h
  split_ifs at h
  rcases bind_error_iff.mp h with hfile | ⟨text, -, h⟩
  · unfold Directory.readFile at hfile
    split at hfile
    · cases hfile
    · cases hfile
      rintro ⟨⟩
  · have hvalue : ∀ value, Counter.ofValue value = .error e → ¬ e.Unknown := by
      intro value hvalue
      unfold Counter.ofValue at hvalue
      split at hvalue
      · cases hvalue
      · cases hvalue
        rintro ⟨⟩
    unfold Counter.read at h
    split at h
    · split at h
      · cases h
      · exact hvalue _ h
      · cases h
        rintro ⟨⟩
    · cases h
    · exact hvalue _ h
    · cases h
      rintro ⟨⟩

theorem backend_neutral : backend.Neutral where
  state store collection e h := by
    rcases bind_error_iff.mp h with hcount | ⟨count, -, h⟩
    · exact counter_known hcount
    rcases bind_error_iff.mp h with hdocuments | ⟨documents, -, h⟩
    · exact documents_known hdocuments
    · exact ((idsOf_blames _).bind fun _ => blames_pure) e h |>.known
  fetch store collection id e h := by
    rcases bind_error_iff.mp h with hdocuments | ⟨documents, -, h⟩
    · exact documents_known hdocuments
    · cases h
  all _ _ _ h := documents_known h
  persist collection documents store :=
    (persist_fails store collection documents).mono (fun _ _ h => h) fun _ _ h => h.known
  remove collection ids store :=
    (remove_fails store collection ids).mono (fun _ _ h => h) fun _ _ h => h.known
  record collection count store :=
    (record_fails store collection count).mono (fun _ _ h => h) fun _ _ h => h.known

end FileStore

/-! ### Parts of operations -/

theorem Query.check_blames {query : Query} : Blames query.check := by
  unfold Query.check
  split
  · exact blames_error .query
  · exact blames_ok

section Steps
variable {σ α β : Type}

/-- A part of an operation never ends with the error of an unknown collection. -/
def NeverUnknown (step : Operation σ α) : Prop := ∀ running : Running σ,
  Ensures step running (fun _ _ => True) fun e _ => ¬ e.Unknown

theorem NeverUnknown.bind {first : Operation σ α} {next : α → Operation σ β}
    (hfirst : NeverUnknown first) (hnext : ∀ a, NeverUnknown (next a)) :
    NeverUnknown (first >>= next) :=
  fun running => (hfirst running).bind fun a after _ => hnext a after

theorem NeverUnknown.map {step : Operation σ α} (h : NeverUnknown step) (f : α → β) :
    NeverUnknown (f <$> step) :=
  fun running => ensures_map.mpr (h running)

theorem neverUnknown_pure {a : α} : NeverUnknown (pure a : Operation σ α) := fun _ => trivial

theorem neverUnknown_modify {f : Running σ → Running σ} :
    NeverUnknown (modify f : Operation σ Unit) := fun _ => trivial

theorem neverUnknown_look {read : σ → Except Error α}
    (h : ∀ store e, read store = .error e → ¬ e.Unknown) :
    NeverUnknown (Operation.look read) := by
  intro running
  unfold Ensures Operation.look
  cases hread : read running.store with
  | ok a => trivial
  | error e => exact h _ e hread

/-- Looking at something and using it in a step that may rely on it. -/
theorem NeverUnknown.look_bind {read : σ → Except Error α} {next : α → Operation σ β}
    (h : ∀ store e, read store = .error e → ¬ e.Unknown)
    (hnext : ∀ store a, read store = .ok a → NeverUnknown (next a)) :
    NeverUnknown (Operation.look read >>= next) := by
  intro running
  refine ensures_bind.mpr ?_
  unfold Ensures Operation.look
  cases hread : read running.store with
  | ok a => exact hnext _ a hread running
  | error e => exact h _ e hread

end Steps

section Operations
variable {σ : Type} {database : Database σ} (hbackend : database.backend.Neutral)
include hbackend

/-- Work on documents whose errors are foreseen. -/
theorem build_neverUnknown {α : Type} {now : Instant} {step : Build α}
    (h : ∀ store, Build.Foresees (database.context now store) step) :
    NeverUnknown (database.build now step) := by
  intro running
  refine ensures_build.mpr ((h running.store running.work).mono (fun _ _ _ => trivial) ?_)
  rintro e _ (hinput | ⟨collection, hstate⟩ | ⟨collection, id, hfetch⟩)
  · exact hinput.known
  · exact hbackend.state _ _ e hstate
  · exact hbackend.fetch _ _ _ e hfetch

theorem commit_neverUnknown (collection : String) (document : Document) :
    NeverUnknown (database.commit collection document) := by
  have hpersist : ∀ collection documents,
      NeverUnknown (Operation.write (database.backend.persist collection documents)) :=
    fun collection documents running => ensures_write.mpr (hbackend.persist _ _ _)
  have hrecord : ∀ counters, NeverUnknown (database.recordAll counters) := by
    intro counters
    induction counters with
    | nil => exact neverUnknown_pure
    | cons counter rest ih =>
      refine NeverUnknown.bind (fun running => ensures_write.mpr (hbackend.record _ _ _)) ?_
      exact fun _ => neverUnknown_modify.bind fun _ => ih
  have hgroups : ∀ groups, NeverUnknown (database.persistGroups groups) := by
    intro groups
    induction groups with
    | nil => exact neverUnknown_pure
    | cons group rest ih => exact (hpersist _ _).bind fun _ => ih
  have hcounters : NeverUnknown database.recordCounters :=
    fun running => hrecord running.work.movedCounters running
  refine hcounters.bind fun _ running => ensures_bind.mpr (ensures_get.mpr ?_)
  exact ((hgroups _).bind fun _ => hpersist collection [document]) running

theorem buildAndCommit_neverUnknown {now : Instant} {collection : String} {step : Build Document}
    (h : ∀ store, Build.Foresees (database.context now store) step) :
    NeverUnknown (database.buildAndCommit now collection step) :=
  neverUnknown_modify.bind fun _ => (build_neverUnknown hbackend h).bind fun document =>
    (commit_neverUnknown hbackend collection document).bind fun _ => neverUnknown_pure

end Operations

/-! ### Operations on collections -/

section Calls
variable {σ : Type} {collection : Collection σ}
  (hbackend : collection.database.backend.Neutral)
  (hclosed : collection.database.registry.Closed)
  (htree : collection.database.registry.tree? collection.name = some collection.tree)
include hbackend

theorem findById_known {id : DocId} {store : σ} {e : Error}
    (h : collection.findById id store = .error e) : ¬ e.Unknown := by
  rcases bind_error_iff.mp h with hfetch | ⟨found, -, h⟩
  · exact hbackend.fetch _ _ _ e hfetch
  · split at h
    · cases h
    · cases h
      rintro ⟨⟩

theorem selected_known {query : Query} {store : σ} {e : Error}
    (h : collection.selected query store = .error e) : ¬ e.Unknown := by
  rcases bind_error_iff.mp h with hcheck | ⟨_, -, h⟩
  · exact (Query.check_blames e hcheck).known
  · rcases bind_error_iff.mp h with hall | ⟨_, -, h⟩
    · exact hbackend.all _ _ e hall
    · cases h

include hclosed htree

/-- **Queries** on a collection of a closed database. -/
theorem find_known {query : Query} {store : σ} {e : Error}
    (h : collection.find query store = .error e) : ¬ e.Unknown := by
  rcases bind_error_iff.mp h with hall | ⟨documents, -, h⟩
  · exact hbackend.all _ _ e hall
  rcases bind_error_iff.mp h with hrun | ⟨found, -, h⟩
  · rcases bind_error_iff.mp hrun with hcheck | ⟨_, -, hrun⟩
    · exact (Query.check_blames e hcheck).known
    · cases hrun
  rcases populate_fails hclosed (hclosed.tree? htree) _ h with hinput | ⟨other, id, hfetch⟩
  · exact hinput.known
  · exact hbackend.fetch _ _ _ e hfetch

theorem insertOne_neverUnknown {now : Instant} (raw : Value) :
    NeverUnknown (collection.insertOne now raw) :=
  buildAndCommit_neverUnknown hbackend fun _ => Build.create_foresees hclosed ⟨_, htree⟩ raw

theorem changeOne_neverUnknown {now : Instant} (existing : Document) (patch : Value) :
    NeverUnknown (collection.changeOne now existing patch) :=
  buildAndCommit_neverUnknown hbackend fun _ =>
    Build.change_foresees hclosed ⟨_, htree⟩ existing patch

/-- Changing a list by any edit whose errors are foreseen. -/
theorem changeList_neverUnknown {now : Instant} {id : DocId} {path : String}
    {edit : Element → List Value → Build (List Value)}
    (hedit : ∀ element current store, element.asNode.Throughout
      (Node.Resolves collection.database.registry) →
        Build.Foresees (collection.database.context now store) (edit element current)) :
    NeverUnknown (collection.changeList now id path edit) := by
  refine NeverUnknown.look_bind (fun _ e h => (Tree.element_blames e h).known) ?_
  intro _ element helement
  have hresolves := Tree.element_closed helement (hclosed.tree? htree)
  refine (neverUnknown_look fun _ _ h => findById_known hbackend h).bind fun existing => ?_
  refine (neverUnknown_look fun _ e h => ?_).bind fun current => ?_
  · exact (Listing.itemsBehind_blames _ _ e h).known
  · refine neverUnknown_modify.bind fun _ => (build_neverUnknown hbackend fun store =>
      hedit _ _ _ hresolves).bind fun items => ?_
    exact changeOne_neverUnknown hbackend hclosed htree _ _

/-- **Calls** on a collection of a closed database never end with the error of an unknown one. -/
theorem perform_neverUnknown (now : Instant) (call : Call) :
    NeverUnknown (collection.perform now call) := by
  cases call with
  | insert raw =>
    exact (neverUnknown_modify.bind fun _ =>
      insertOne_neverUnknown hbackend hclosed htree raw).map _
  | insertMany raws =>
    have hall : NeverUnknown (collection.insertAll now raws) := by
      induction raws with
      | nil => exact neverUnknown_pure
      | cons raw rest ih =>
        exact (insertOne_neverUnknown hbackend hclosed htree raw).bind fun _ =>
          ih.bind fun _ => neverUnknown_pure
    exact (neverUnknown_modify.bind fun _ => hall).map _
  | updateById id patch =>
    refine NeverUnknown.map ((neverUnknown_look fun _ _ h => findById_known hbackend h).bind
      fun existing => neverUnknown_modify.bind fun _ => ?_) _
    exact changeOne_neverUnknown hbackend hclosed htree existing patch
  | updateMany query patch =>
    have hall : ∀ documents, NeverUnknown (collection.changeAll now patch documents) := by
      intro documents
      induction documents with
      | nil => exact neverUnknown_pure
      | cons existing rest ih =>
        exact (changeOne_neverUnknown hbackend hclosed htree existing patch).bind fun _ =>
          ih.bind fun _ => neverUnknown_pure
    exact NeverUnknown.map ((neverUnknown_look fun _ _ h => selected_known hbackend h).bind
      fun documents => neverUnknown_modify.bind fun _ => hall documents) _
  | deleteById id =>
    have hremove : NeverUnknown (Operation.write
        (collection.database.backend.remove collection.name [id])) :=
      fun running => ensures_write.mpr (hbackend.remove _ _ _)
    refine hremove.bind fun removed => ?_
    cases removed with
    | zero => exact fun _ h => by cases h
    | succ => exact neverUnknown_pure
  | deleteMany query =>
    refine NeverUnknown.map ((neverUnknown_look fun _ _ h => selected_known hbackend h).bind
      fun documents => ?_) _
    dsimp only
    split_ifs
    · exact neverUnknown_pure
    · exact fun running => ensures_write.mpr (hbackend.remove _ _ _)
  | insertInto id path values =>
    exact (changeList_neverUnknown hbackend hclosed htree fun _ _ _ helement =>
      Build.insert_foresees helement).map _
  | removeFrom id path values =>
    exact (changeList_neverUnknown hbackend hclosed htree fun _ _ _ _ =>
      Build.foresees_pure).map _
  | updateArray id path matcher updates =>
    exact (changeList_neverUnknown hbackend hclosed htree fun _ _ _ _ =>
      Build.foresees_lift Listing.update_blames).map _

end Calls

/-! ### Compiled schemas -/

/-- **A compiled schema is closed.** The order of the definitions does not matter for it; at any
depth it names collections of its own only, with the right kinds of ids; the id stands first in each
collection and is the only one. So building on a collection of the schema meets no unknown
collection, and neither calls nor queries on it ever end with the error of one. -/
theorem registry_closed {shardMax : Nat} {definitions : List Definition} {registry : Registry}
    (hcompile : Registry.compile shardMax definitions = .ok registry)
    (honce : (definitions.map (·.collection)).Nodup) :
    (∀ others, definitions.Perm others → ∃ same, Registry.compile shardMax others = .ok same ∧
      same.shardMax = registry.shardMax ∧ same.trees.Perm registry.trees ∧
      ∀ name, same.tree? name = registry.tree? name) ∧
    registry.Closed ∧
    (∀ tree ∈ registry.trees, tree.keys.head? = some idKey ∧ idKey ∉ tree.fields.names ∧
      ∀ path rule, tree.at? path = some (.id rule) ↔ path = idKey ∧ rule = tree.id) ∧
    (∀ context : Context, context.registry = registry → ∀ collection tree,
      registry.tree? collection = some tree →
        (∀ raw, Build.Foresees context (Build.create collection raw)) ∧
        (∀ existing raw, Build.Foresees context (Build.change collection existing raw)) ∧
        ∀ raw, Build.Foresees context (Build.changeNamed collection raw)) ∧
    (∀ (σ : Type) (database : Database σ), database.registry = registry →
      database.backend.Neutral → ∀ name collection, database.collection name = .ok collection →
        (∀ now call, NeverUnknown (collection.perform now call)) ∧
        ∀ query store e, collection.find query store = .error e → ¬ e.Unknown) ∧
    MemoryStore.backend.Neutral ∧ FileStore.backend.Neutral := by
  have hclosed := Registry.compile_closed hcompile
  refine ⟨fun others => Registry.compile_perm hcompile honce, hclosed, fun tree hin => ?_, ?_, ?_,
    MemoryStore.backend_neutral, FileStore.backend_neutral⟩
  · exact ⟨rfl, Registry.compile_noId hcompile tree hin, fun _ _ => Tree.at?_id_iff⟩
  · rintro context rfl collection tree htree
    exact ⟨Build.create_foresees hclosed ⟨tree, htree⟩, Build.change_foresees hclosed ⟨tree, htree⟩,
      Build.changeNamed_foresees hclosed ⟨tree, htree⟩⟩
  · rintro σ database rfl hbackend name collection hcollection
    obtain ⟨rfl, rfl, htree⟩ := collection_ok hcollection
    exact ⟨perform_neverUnknown hbackend hclosed htree,
      fun _ _ _ => find_known hbackend hclosed htree⟩

/-- Boxes and items name each other only, and boxes may be defined before items. -/
theorem boxes_closed :
    (boxDefinitions.map (·.collection)).Nodup ∧
    Registry.Closed { shardMax := 1000, trees := [itemTree, boxTree] } ∧
    ∃ same, Registry.compile 1000 boxDefinitions.reverse = .ok same ∧
      same.tree? "items" = some itemTree ∧ same.tree? "boxes" = some boxTree := by
  have honce : (boxDefinitions.map (·.collection)).Nodup := by decide
  obtain ⟨horder, hclosed, -⟩ := @registry_closed 1000 boxDefinitions
    { shardMax := 1000, trees := [itemTree, boxTree] } rfl honce
  obtain ⟨same, hsame, -, -, htree⟩ := horder _ (List.reverse_perm boxDefinitions).symm
  exact ⟨honce, hclosed, same, hsame, htree "items", htree "boxes"⟩

end DocumentDb
