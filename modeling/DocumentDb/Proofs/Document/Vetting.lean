import DocumentDb.Document.Listing
import DocumentDb.Proofs.Document.Composition
import DocumentDb.Proofs.Document.Keeping
import DocumentDb.Proofs.Store.Shards

/-!
# Vetted documents

Whatever is built: a document that waits to be stored has passed the check of its size, which is the
last thing that happens to a new or a changed document before it waits. So all that waits fits into
a shard. If, besides, whatever comes from the store or from building is *accepted*, in some sense
that does not matter here, then all that waits is accepted as well, and so is all that is embedded.

Nothing is assumed of the store but the size of its shards and that its documents are accepted.
-/

namespace DocumentDb

/-- **A regular space** has the rule of its collection and knows the size of shards. -/
structure IdSpace.Regular (registry : Registry) (shardMax : Nat) (space : IdSpace) : Prop where
  rule : ∃ tree, registry.tree? space.collection = some tree ∧ space.rule = tree.id
  shardMax_eq : space.shardMax = shardMax

/-- **A new id of a collection**: a regular space generates it or lets it be claimed. -/
inductive Context.Issues (context : Context) (shardMax : Nat) (collection : String)
    (id : DocId) : Prop
  | generated {space after : IdSpace} {drawn : Nat}
    (hspace : space.Regular context.registry shardMax) (hcollection : space.collection = collection)
    (h : (space.generate context.source drawn).1 = .ok (id, after))
  | claimed {space after : IdSpace} {field : String} {value : Value}
    (hspace : space.Regular context.registry shardMax) (hcollection : space.collection = collection)
    (h : space.claim field value = .ok (id, after))

/-- **Vetted work**: its spaces are regular, and what waits fits into shards of their size and is
accepted. -/
structure Work.Vetted (registry : Registry) (shardMax : Nat) (accepted : String → Document → Prop)
    (work : Work) : Prop where
  spaces : ∀ space ∈ work.spaces, space.Regular registry shardMax
  waiting : ∀ write ∈ work.pending,
    write.document.FitsShard shardMax ∧ accepted write.collection write.document

/-- **What makes documents acceptable**: those in the store are, and so is what vetted work builds,
from nothing or from an accepted document. -/
structure Vetting (context : Context) (shardMax : Nat) (accepted : String → Document → Prop) :
    Prop where
  limit : ∀ collection state, context.state collection = .ok state → state.shardMax = shardMax
  fetched : ∀ collection id document, context.fetch collection id = .ok (some document) →
    accepted collection document
  inserted : ∀ {collection : String} {tree : Tree} {id : DocId} {path : String} {input : Object}
    {scope : Scope} {work after : Work} {fields : Object},
    context.registry.tree? collection = some tree → context.Issues shardMax collection id →
    work.Vetted context.registry shardMax accepted →
    Build.buildFields path tree.fields input scope tree.managedKeys context work =
      (.ok fields, after) →
    accepted collection (Build.stampNew tree context.now ((idKey, id.toValue) :: fields))
  changed : ∀ {collection : String} {tree : Tree} {existing : Document} {path : String}
    {patch : Object} {scope : Scope} {work after : Work} {merged : Object},
    context.registry.tree? collection = some tree → accepted collection existing →
    work.Vetted context.registry shardMax accepted →
    Build.mergeFields path tree.fields existing patch scope tree.managedKeys context work =
      (.ok merged, after) →
    accepted collection (tree.order (Build.stampChanged tree context.now merged))

/-- Setting a space adds none but this one. -/
theorem Work.mem_of_mem_putSpace {new space : IdSpace} {spaces : List IdSpace}
    (h : space ∈ putSpace new spaces) : space = new ∨ space ∈ spaces := by
  induction spaces with
  | nil => exact Or.inl (List.mem_singleton.mp h)
  | cons first rest ih =>
    rw [putSpace] at h
    split_ifs at h
    · exact (List.mem_cons.mp h).imp_right (List.mem_cons_of_mem _)
    · rcases List.mem_cons.mp h with rfl | hin
      · exact Or.inr List.mem_cons_self
      · exact (ih hin).imp_right (List.mem_cons_of_mem _)

namespace IdSpace

section Regular
variable {registry : Registry} {shardMax : Nat} {space after : IdSpace} {id : DocId}

theorem Regular.claimed (h : space.Regular registry shardMax) :
    (space.claimed id).Regular registry shardMax where
  rule := by
    rw [claimed_collection, claimed_rule]
    exact h.rule
  shardMax_eq := claimed_shardMax.trans h.shardMax_eq

/-- A space stays regular when it generates an id, whatever the source of texts is. -/
theorem Regular.generate (h : space.Regular registry shardMax) {source : IdSource} {drawn : Nat}
    (hid : (space.generate source drawn).1 = .ok (id, after)) :
    after.Regular registry shardMax := by
  obtain ⟨hcollection, hrule, hshardMax⟩ := generate_keeps hid
  refine ⟨?_, hshardMax.trans h.shardMax_eq⟩
  rw [hcollection, hrule]
  exact h.rule

end Regular

end IdSpace

theorem Work.Vetted.mono {registry : Registry} {shardMax : Nat}
    {accepted accepted' : String → Document → Prop} {work : Work}
    (h : work.Vetted registry shardMax accepted)
    (haccepted : ∀ collection document, accepted collection document →
      accepted' collection document) : work.Vetted registry shardMax accepted' where
  spaces := h.spaces
  waiting write hin := ⟨(h.waiting write hin).1, haccepted _ _ (h.waiting write hin).2⟩

/-- The rule of a collection admits its new ids. -/
theorem Context.Issues.admits {context : Context} {shardMax : Nat} {collection : String}
    {id : DocId} (h : context.Issues shardMax collection id)
    (hregistry : context.registry.Proper) (hsource : context.source.Exact) :
    ∃ tree, context.registry.tree? collection = some tree ∧ tree.id.Admits id := by
  have hrule : ∀ {space : IdSpace}, space.Regular context.registry shardMax →
      space.collection = collection → space.rule.Proper ∧ (space.rule.Admits id →
        ∃ tree, context.registry.tree? collection = some tree ∧ tree.id.Admits id) := by
    rintro space hspace rfl
    obtain ⟨tree, htree, hsame⟩ := hspace.rule
    rw [hsame]
    exact ⟨(hregistry.tree? htree).id, fun hadmits => ⟨tree, htree, hadmits⟩⟩
  cases h with
  | generated hspace hcollection h =>
    obtain ⟨hproper, hadmitted⟩ := hrule hspace hcollection
    exact hadmitted (IdSpace.generate_ok hsource hproper h).1.admits
  | claimed hspace hcollection h =>
    exact (hrule hspace hcollection).2 (IdSpace.claim_ok h).2.admits

namespace Build

section Vetting
variable {context : Context} {shardMax : Nat} {accepted : String → Document → Prop}
  {α β : Type} {path collection : String} {input : Object}

/-- **A step vets**: it keeps work vetted, and its value is as `done` says. -/
def Vets (context : Context) (shardMax : Nat) (accepted : String → Document → Prop)
    (step : Build α) (done : α → Prop) : Prop :=
  ∀ work : Work, work.Vetted context.registry shardMax accepted → Ensures (step context) work
    (fun a after => after.Vetted context.registry shardMax accepted ∧ done a)
    (fun _ after => after.Vetted context.registry shardMax accepted)

/-! ### Single steps -/

theorem Vets.bind {first : Build α} {next : α → Build β} {middle : α → Prop} {done : β → Prop}
    (hfirst : Vets context shardMax accepted first middle)
    (hnext : ∀ a, middle a → Vets context shardMax accepted (next a) done) :
    Vets context shardMax accepted (first >>= next) done := fun work hwork =>
  Ensures.bind (hfirst work hwork) fun a after h => hnext a h.2 after h.1

theorem Vets.mono {step : Build α} {done done' : α → Prop}
    (h : Vets context shardMax accepted step done) (hdone : ∀ a, done a → done' a) :
    Vets context shardMax accepted step done' := fun work hwork =>
  (h work hwork).mono (fun a _ h => ⟨h.1, hdone a h.2⟩) fun _ _ h => h

theorem Vets.map {step : Build α} {done : α → Prop}
    (h : Vets context shardMax accepted step done) (f : α → β) :
    Vets context shardMax accepted (f <$> step) fun b => ∃ a, done a ∧ f a = b :=
  fun work hwork => ensures_map.mpr
    ((h work hwork).mono (fun a _ h => ⟨h.1, a, h.2, rfl⟩) fun _ _ h => h)

/-- The run of a step in vetted work. -/
theorem Vets.run {step : Build α} {done : α → Prop}
    (h : Vets context shardMax accepted step done) :
    Vets context shardMax accepted step fun a =>
      ∃ work after, work.Vetted context.registry shardMax accepted ∧
        step context work = (.ok a, after) := by
  intro work hwork
  refine ((h work hwork).and ensures_self).mono ?_ fun _ _ h => h.1
  exact fun a after h => ⟨h.1.1, work, after, hwork, h.2⟩

theorem vets_lift {result : Except Error α} :
    Vets context shardMax accepted (lift result) fun a => result = .ok a := fun _ hwork =>
  ensures_lift context (fun _ ha => ⟨hwork, ha⟩) fun _ _ => hwork

theorem vets_pure {a : α} {done : α → Prop} (h : done a) :
    Vets context shardMax accepted (pure a) done := fun _ hwork => ⟨hwork, h⟩

theorem vets_fail {e : Error} {done : α → Prop} :
    Vets context shardMax accepted (fail e : Build α) done :=
  vets_lift.mono fun _ h => by cases h

theorem read_vets : Vets context shardMax accepted (read : Build Context)
    fun found => found = context := fun _ hwork => ⟨hwork, rfl⟩

theorem get_vets : Vets context shardMax accepted (get : Build Work) fun _ => True :=
  fun _ hwork => ⟨hwork, trivial⟩

theorem tree_vets : Vets context shardMax accepted (tree collection)
    fun tree => context.registry.tree? collection = some tree := by
  refine read_vets.bind fun _ hcontext => vets_lift.mono fun tree htree => ?_
  exact Registry.tree_ok_iff.mp (hcontext ▸ htree)

theorem inputObject_vets {raw : Value} :
    Vets context shardMax accepted (inputObject collection raw) fun _ => True := by
  unfold inputObject
  split
  · exact vets_pure trivial
  · exact vets_fail

theorem put_vets {space : IdSpace} (hspace : space.Regular context.registry shardMax) :
    Vets context shardMax accepted (modify (·.put space) : Build Unit) fun _ => True := by
  intro work hwork
  refine ⟨⟨fun other hin => ?_, hwork.waiting⟩, trivial⟩
  rcases Work.mem_of_mem_putSpace hin with rfl | hin
  · exact hspace
  · exact hwork.spaces other hin

theorem push_vets {document : Document} (hfits : document.FitsShard shardMax)
    (haccepted : accepted collection document) :
    Vets context shardMax accepted (push collection document) fun _ => True := by
  intro work hwork
  refine ⟨⟨hwork.spaces, fun write hin => ?_⟩, trivial⟩
  rcases List.mem_append.mp hin with hin | hin
  · exact hwork.waiting write hin
  · rw [List.mem_singleton.mp hin]
    exact ⟨hfits, haccepted⟩

variable (hvetting : Vetting context shardMax accepted)
include hvetting

theorem space_vets : Vets context shardMax accepted (space collection)
    fun space => space.collection = collection ∧ space.Regular context.registry shardMax := by
  intro work hwork
  refine ensures_bind.mpr (ensures_get.mpr ?_)
  cases hspace : work.space? collection with
  | some space =>
    obtain ⟨hin, hcollection⟩ := Work.space?_some hspace
    exact ⟨hwork, hcollection, hwork.spaces space hin⟩
  | none =>
    refine (tree_vets.bind fun tree htree => read_vets.bind fun _ hcontext => ?_) work hwork
    refine vets_lift.bind fun state hstate => ?_
    have hcollection := Registry.tree?_collection htree
    have hregular : (IdSpace.ofState tree state).Regular context.registry shardMax := by
      refine ⟨⟨tree, ?_, rfl⟩, hvetting.limit collection state (hcontext ▸ hstate)⟩
      exact (congrArg context.registry.tree? hcollection).trans htree
    exact (put_vets hregular).bind fun _ _ => vets_pure ⟨hcollection, hregular⟩

theorem generateId_vets : Vets context shardMax accepted (generateId collection)
    (context.Issues shardMax collection) := by
  refine (space_vets hvetting).bind ?_
  rintro space ⟨hcollection, hspace⟩
  refine read_vets.bind fun _ hcontext => get_vets.bind fun _ _ => ?_
  rw [hcontext]
  have hdrawn : ∀ drawn, Vets context shardMax accepted
      (modify fun work => { work with drawn } : Build Unit) fun _ => True :=
    fun _ _ hwork => ⟨⟨hwork.spaces, hwork.waiting⟩, trivial⟩
  refine (hdrawn _).bind fun _ _ => vets_lift.bind fun taken htaken => ?_
  obtain ⟨id, after⟩ := taken
  have hafter : after.Regular context.registry shardMax :=
    hspace.generate htaken
  exact (put_vets hafter).bind fun _ _ => vets_pure (.generated hspace hcollection htaken)

theorem claimId_vets {field : String} {value : Value} :
    Vets context shardMax accepted (claimId collection field value)
      (context.Issues shardMax collection) := by
  refine (space_vets hvetting).bind ?_
  rintro space ⟨hcollection, hspace⟩
  refine vets_lift.bind fun taken htaken => ?_
  obtain ⟨id, after⟩ := taken
  have hafter : after.Regular context.registry shardMax := by
    rw [(IdSpace.claim_ok htaken).2.after_eq]
    exact hspace.claimed
  exact (put_vets hafter).bind fun _ _ => vets_pure (.claimed hspace hcollection htaken)

theorem newId_vets : Vets context shardMax accepted (newId path collection input)
    (context.Issues shardMax collection) := by
  unfold newId
  split
  · exact generateId_vets hvetting
  · exact generateId_vets hvetting
  · exact claimId_vets hvetting

/-- The latest version of a document is accepted, whether it waits or is stored. -/
theorem lookup_vets {id : DocId} :
    Vets context shardMax accepted (lookup collection id) (accepted collection) := by
  intro work hwork
  refine ensures_bind.mpr (ensures_get.mpr ?_)
  cases hpending : work.pendingDocument? collection id with
  | some document =>
    unfold Work.pendingDocument? at hpending
    obtain ⟨write, hfound, rfl⟩ := Option.map_eq_some_iff.mp hpending
    have hmeans := List.find?_some hfound
    simp only [Bool.and_eq_true, beq_iff_eq] at hmeans
    have hwaits := hwork.waiting write (List.mem_reverse.mp (List.mem_of_find?_eq_some hfound))
    exact ⟨hwork, hmeans.1 ▸ hwaits.2⟩
  | none =>
    refine (read_vets.bind fun _ hcontext => vets_lift.bind fun found hfound => ?_) work hwork
    split
    · next document =>
      exact vets_pure (hvetting.fetched collection id document (hcontext ▸ hfound))
    · exact vets_fail

/-- **What passes the check of its size fits into a shard.** -/
theorem checkSize_vets {document : Document} :
    Vets context shardMax accepted (checkSize collection document)
      fun _ => document.FitsShard shardMax := by
  refine (space_vets hvetting).bind ?_
  rintro space ⟨-, hspace⟩
  dsimp only
  rw [hspace.shardMax_eq]
  split_ifs with hlarge
  · exact vets_fail
  · exact vets_pure (Nat.le_of_not_lt hlarge)

/-! ### The builder -/

/-- A new document fits and is accepted if building its fields vets. -/
theorem insertDocument_vets {inject : Option Owner}
    (hfields : ∀ tree, context.registry.tree? collection = some tree →
      ∀ path scope reserved, Vets context shardMax accepted
        (buildFields path tree.fields input scope reserved) fun _ => True) :
    Vets context shardMax accepted (insertDocument path collection input inject)
      fun document => document.FitsShard shardMax ∧ accepted collection document := by
  rw [insertDocument]
  refine tree_vets.bind fun tree htree => (newId_vets hvetting).bind fun id hid => ?_
  refine (hfields tree htree _ _ _).run.bind ?_
  rintro fields ⟨work, after, hwork, hbuilt⟩
  refine read_vets.bind fun _ hcontext => ?_
  rw [hcontext]
  refine (checkSize_vets hvetting).bind fun _ hfits => vets_pure ⟨hfits, ?_⟩
  exact hvetting.inserted htree hid hwork hbuilt

/-- A changed document fits and is accepted if applying the patch vets. -/
theorem updateDocument_vets {existing : Document} (hexisting : accepted collection existing)
    (hfields : ∀ tree, context.registry.tree? collection = some tree →
      ∀ path target scope reserved, Vets context shardMax accepted
        (mergeFields path tree.fields target input scope reserved) fun _ => True) :
    Vets context shardMax accepted (updateDocument path collection existing input)
      fun document => document.FitsShard shardMax ∧ accepted collection document := by
  rw [updateDocument]
  refine tree_vets.bind fun tree htree => ?_
  split
  · exact vets_fail
  · refine vets_lift.bind fun _ _ => (hfields tree htree _ _ _ _).run.bind ?_
    rintro merged ⟨work, after, hwork, hmerged⟩
    refine read_vets.bind fun _ hcontext => ?_
    rw [hcontext]
    refine (checkSize_vets hvetting).bind fun _ hfits => vets_pure ⟨hfits, ?_⟩
    exact hvetting.changed htree hexisting hwork hmerged

/-- A document that is added waits only if it fits. -/
theorem createEmbedded_vets {inject : Option Owner}
    (hfields : ∀ tree, context.registry.tree? collection = some tree →
      ∀ path scope reserved, Vets context shardMax accepted
        (buildFields path tree.fields input scope reserved) fun _ => True) :
    Vets context shardMax accepted (createEmbedded path collection input inject)
      (accepted collection) := by
  rw [createEmbedded]
  refine (insertDocument_vets hvetting hfields).bind fun document hdocument => ?_
  exact (push_vets hdocument.1 hdocument.2).bind fun _ _ => vets_pure hdocument.2

/-- **An embedded document is accepted**, whether it is new, changed or taken as it is. -/
theorem embedDocument_vets {inject : Option Owner}
    (hnew : ∀ tree, context.registry.tree? collection = some tree →
      ∀ path scope reserved, Vets context shardMax accepted
        (buildFields path tree.fields input scope reserved) fun _ => True)
    (hchanged : ∀ tree, context.registry.tree? collection = some tree →
      ∀ path target scope reserved, Vets context shardMax accepted
        (mergeFields path tree.fields target input scope reserved) fun _ => True) :
    Vets context shardMax accepted (embedDocument path collection input inject)
      (accepted collection) := by
  rw [embedDocument]
  split
  · exact createEmbedded_vets hvetting hnew
  · exact createEmbedded_vets hvetting hnew
  · refine (space_vets hvetting).bind fun space _ => vets_lift.bind fun id _ => ?_
    split_ifs
    · refine (lookup_vets hvetting).bind fun stored hstored => ?_
      split_ifs
      · exact vets_pure hstored
      · refine (updateDocument_vets hvetting hstored hchanged).bind fun document hdocument => ?_
        exact (push_vets hdocument.1 hdocument.2).bind fun _ _ => vets_pure hdocument.2
    · exact createEmbedded_vets hvetting hnew

/-- **All that is built vets.** -/
theorem Composed.vets {step : Build α}
    (h : Composed context.registry (fun _ _ => False) (fun _ _ => True) step) :
    Vets context shardMax accepted step fun _ => True := by
  induction h with
  | lift => exact vets_lift.mono fun _ _ => trivial
  | bind _ _ hfirst hnext => exact hfirst.bind fun a _ => hnext a
  | checkReference =>
    exact (space_vets hvetting).bind fun _ _ => vets_lift.mono fun _ _ => trivial
  | embed _ _ _ hnew hchanged =>
    exact (embedDocument_vets hvetting (hnew not_false) (hchanged not_false)).mono
      fun _ _ => trivial

theorem buildFields_vets {fields : Fields} {scope : Scope} {reserved : List String} :
    Vets context shardMax accepted (buildFields path fields input scope reserved) fun _ => True :=
  Composed.vets hvetting
    (buildFields_composed path fields input scope reserved fun _ _ _ => trivial)

theorem mergeFields_vets {fields : Fields} {target : Object} {scope : Scope}
    {reserved : List String} : Vets context shardMax accepted
      (mergeFields path fields target input scope reserved) fun _ => True :=
  Composed.vets hvetting
    (mergeFields_composed path fields target input scope reserved fun _ _ _ => trivial)

/-- **A document that is created fits into a shard** and is accepted. -/
theorem create_vets {raw : Value} : Vets context shardMax accepted (create collection raw)
    fun document => document.FitsShard shardMax ∧ accepted collection document :=
  inputObject_vets.bind fun _ _ => insertDocument_vets hvetting fun _ _ _ _ _ =>
    buildFields_vets hvetting

/-- **A document that is changed fits into a shard** and is accepted, if it was before. -/
theorem change_vets {existing : Document} {raw : Value} (hexisting : accepted collection existing) :
    Vets context shardMax accepted (change collection existing raw)
      fun document => document.FitsShard shardMax ∧ accepted collection document :=
  inputObject_vets.bind fun _ _ => updateDocument_vets hvetting hexisting fun _ _ _ _ _ _ =>
    mergeFields_vets hvetting

/-- Adding values to a list vets: it looks at a space at most. -/
theorem insertItems_vets {element : Element} {current values : List Value} :
    Vets context shardMax accepted (Listing.insert path element current values)
      fun _ => True := by
  unfold Listing.insert
  split
  · exact vets_pure trivial
  · refine (space_vets hvetting).bind fun space _ => vets_lift.bind fun _ _ => ?_
    exact vets_pure trivial
  · exact vets_pure trivial

end Vetting

end Build

end DocumentDb
