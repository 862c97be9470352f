import DocumentDb.Database.Collection
import DocumentDb.Proofs.Database.Commit
import DocumentDb.Proofs.Document.Editing

/-!
# What operations ensure

An operation that fails leaves a sound store, and so does one that succeeds; then all ids that were
taken are stored as well, and the next part of the operation can build on them (`Ready`).
`MemoryStore.Advances` is how the ids and counters of a store change on the way. `Carries` is what
every part of an operation ensures of both; it composes along `do` blocks.

If writes may fail, references may be stored whose targets are not: the store is sound only loosely.
-/

namespace DocumentDb

/-! ### Stores before and after -/

/-- **How a store changes in an operation**: counters never fall, and a new number is one that the
input names or is above the counter. -/
structure MemoryStore.Advances (named : String → DocId → Prop) (before after : MemoryStore) :
    Prop where
  counts : ∀ collection, before.count collection ≤ after.count collection
  fresh : ∀ collection n, after.Has collection (.number n) →
    before.Has collection (.number n) ∨ named collection (.number n) ∨ before.count collection < n

/-- No document is removed. -/
def MemoryStore.Retains (before after : MemoryStore) : Prop :=
  ∀ collection id, before.Has collection id → after.Has collection id

section Change
variable {named : String → DocId → Prop} {before middle after : MemoryStore}

theorem MemoryStore.Advances.refl (store : MemoryStore) : store.Advances named store where
  counts _ := Nat.le_refl _
  fresh _ _ h := Or.inl h

theorem MemoryStore.Advances.trans (h : before.Advances named middle)
    (h' : middle.Advances named after) : before.Advances named after where
  counts collection := Nat.le_trans (h.counts collection) (h'.counts collection)
  fresh collection n hhas := by
    rcases h'.fresh collection n hhas with hhas | hnamed | hcount
    · exact h.fresh collection n hhas
    · exact Or.inr (Or.inl hnamed)
    · exact Or.inr (Or.inr (Nat.lt_of_le_of_lt (h.counts collection) hcount))

theorem MemoryStore.Retains.refl (store : MemoryStore) : store.Retains store := fun _ _ h => h

theorem MemoryStore.Retains.trans (h : before.Retains middle) (h' : middle.Retains after) :
    before.Retains after := fun collection id hhas => h' collection id (h collection id hhas)

theorem MemoryStore.knows_retained {loose : Prop} (h : before.Retains after) :
    ∀ collection id, before.Knows loose collection id → after.Knows loose collection id := by
  rintro collection id (hloose | hhas)
  · exact Or.inl hloose
  · exact Or.inr (h collection id hhas)

end Change

/-! ### Parts of operations -/

/-- A store between the parts of an operation: it is sound, the work follows it, and every id that
was taken is stored. -/
structure Ready (registry : Registry) (loose : Prop) (store : MemoryStore) (work : Work) :
    Prop where
  sound : store.Sound registry (store.Knows loose)
  follows : work.Follows registry store
  covered : ∀ collection id, work.Taken collection id → store.Has collection id

section Carrying
variable {σ α β : Type} {database : Database σ} {view : σ → MemoryStore} {faults loose : Prop}
  {named : String → DocId → Prop} {running : Running σ}

/-- The store and the work of a database in use are ready. -/
abbrev Running.Ready (database : Database σ) (view : σ → MemoryStore) (loose : Prop)
    (running : Running σ) : Prop :=
  DocumentDb.Ready database.registry loose (view running.store) running.work

/-- What holds after an operation in any case. -/
structure Settled (database : Database σ) (view : σ → MemoryStore) (loose : Prop)
    (named : String → DocId → Prop) (before after : σ) : Prop where
  sound : (view after).Sound database.registry ((view after).Knows loose)
  advances : (view before).Advances named (view after)

/-- **What a part of an operation ensures.** -/
def Carries (database : Database σ) (view : σ → MemoryStore) (loose : Prop)
    (named : String → DocId → Prop) (running : Running σ) (step : Operation σ α)
    (done : α → Running σ → Prop) : Prop :=
  running.Ready database view loose →
    Ensures step running
      (fun a after => after.Ready database view loose ∧
        (view running.store).Advances named (view after.store) ∧
        (view running.store).Retains (view after.store) ∧ done a after)
      (fun e after => Settled database view loose named running.store after.store ∧ ¬ e.Reuse)

/-- A part and then another. -/
theorem Carries.bind {first : Operation σ α} {next : α → Operation σ β}
    {middle : α → Running σ → Prop} {done : β → Running σ → Prop}
    (hfirst : Carries database view loose named running first middle)
    (hnext : ∀ a after, (view running.store).Retains (view after.store) → middle a after →
      Carries database view loose named after (next a) done) :
    Carries database view loose named running (first >>= next) done := by
  intro hready
  refine ensures_bind.mpr ((hfirst hready).mono ?_ fun _ _ h => h)
  rintro a after ⟨hafter, hadvances, hretains, hmiddle⟩
  refine (hnext a after hretains hmiddle hafter).mono ?_ ?_
  · rintro b last ⟨hlast, hadvances', hretains', hdone⟩
    exact ⟨hlast, hadvances.trans hadvances', hretains.trans hretains', hdone⟩
  · rintro e last ⟨hlast, hreuse⟩
    exact ⟨⟨hlast.sound, hadvances.trans hlast.advances⟩, hreuse⟩

theorem Carries.mono {step : Operation σ α} {done done' : α → Running σ → Prop}
    (h : Carries database view loose named running step done)
    (hdone : ∀ a after, done a after → done' a after) :
    Carries database view loose named running step done' := by
  intro hready
  refine (h hready).mono ?_ fun _ _ h => h
  rintro a after ⟨hafter, hadvances, hretains, hd⟩
  exact ⟨hafter, hadvances, hretains, hdone a after hd⟩

theorem carries_pure {a : α} {done : α → Running σ → Prop} (h : done a running) :
    Carries database view loose named running (pure a) done := by
  intro hready
  exact ⟨hready, .refl _, .refl _, h⟩

theorem fresh_ready (hsound : (view running.store).Sound database.registry
    ((view running.store).Knows loose)) :
    ({ running with work := running.work.fresh } : Running σ).Ready database view loose where
  sound := hsound
  follows := ⟨List.nodup_nil, fun _ h => by cases h⟩
  covered := by rintro collection id ⟨space, hin, _⟩; cases hin

/-! ### Building and committing -/

/-- What a database builds documents on. -/
def Database.ground (database : Database σ) (view : σ → MemoryStore) (now : Instant)
    (loose : Prop) (named : String → DocId → Prop) (store : σ) : Ground where
  context := database.context now store
  store := view store
  loose := loose
  named := named

/-- An id that is taken or stored. -/
def Ground.InUse (ground : Ground) (work : Work) (collection : String) (id : DocId) : Prop :=
  work.Taken collection id ∨ ground.store.Has collection id

/-- **A step delivers a document** whose id is in use, and closes what it opens. -/
def Delivers (ground : Ground) (collection : String) (step : Build Document) : Prop :=
  ∀ work, Opens ground [] work step (Build.opening collection []) fun document after =>
    ∃ id, ground.Built after collection id document ∧ ground.InUse after collection id

theorem ensures_build {now : Instant} {step : Build α} {done : α → Running σ → Prop}
    {failed : Error → Running σ → Prop} :
    Ensures (database.build now step) running done failed ↔
      Ensures (step (database.context now running.store)) running.work
        (fun a work => done a { running with work })
        (fun e work => failed e { running with work }) := by
  unfold Ensures Database.build
  dsimp only
  rcases step (database.context now running.store) running.work with ⟨result, work⟩
  cases result <;> rfl

/-- An operation that begins with a look at the store. -/
theorem ensures_look {α β : Type} {read : σ → Except Error α} {next : α → Operation σ β}
    {done : β → Running σ → Prop} {failed : Error → Running σ → Prop} {a : α}
    (hread : read running.store = .ok a) (hnext : Ensures (next a) running done failed) :
    Ensures (Operation.look read >>= next) running done failed := by
  refine ensures_bind.mpr ?_
  unfold Ensures Operation.look
  rw [hread]
  exact hnext

/-- Work that is ready is sound, and nothing is open. -/
theorem Ready.work_sound {store : σ} {work : Work} {now : Instant}
    (h : Ready database.registry loose (view store) work) (hpending : work.pending = []) :
    work.Sound (database.ground view now loose named store) [] where
  follows := h.follows
  waiting write hin := by rw [hpending] at hin; cases hin
  covered collection id htaken := Or.inl (h.covered collection id htaken)
  fresh collection n htaken := Or.inl (h.covered collection _ htaken)

theorem Ready.cleared {registry : Registry} {store : MemoryStore} {work : Work}
    (h : Ready registry loose store work) : Ready registry loose store work.cleared where
  sound := h.sound
  follows := ⟨h.follows.once, h.follows.each⟩
  covered := h.covered

section Built
variable {ground : Ground} {opened : List (String × DocId)} {work : Work} {collection : String}
  {id : DocId} {document : Document}

/-- When building is done, all that it took may be committed. -/
theorem Work.Sound.committing (hground : ground.Sound) (h : work.Sound ground opened) :
    Committing ground.context.registry (ground.Knows work) ground.store (ground.InUse work)
      ground.store work where
  follows := h.follows
  sound := by
    refine hground.stored.mono ?_
    rintro collection id (hloose | hhas)
    · exact Or.inl hloose
    · exact Or.inr (Or.inl hhas)
  kept _ _ h := h
  added _ _ h := Or.inr h
  counts _ := Nat.le_refl _
  taken _ _ := Iff.rfl

/-- What a commit has stored was stored before or was taken. -/
theorem Work.Sound.advances {after : Work} {known : String → DocId → Prop} {store : MemoryStore}
    (h : work.Sound ground opened)
    (hcommitting : Committing ground.context.registry known ground.store (ground.InUse work)
      store after) : ground.store.Advances ground.named store where
  counts := hcommitting.counts
  fresh collection n hhas := by
    rcases hcommitting.added collection _ hhas with htaken | hhas
    · exact h.fresh collection n htaken
    · exact Or.inl hhas

theorem Ground.Built.deliverable (h : ground.Built work collection id document)
    (htaken : ground.InUse work collection id) :
    Deliverable ground.context.registry (ground.Knows work) (ground.InUse work) collection
      document where
  conform := h.conform
  taken := ⟨id, h.id, htaken⟩

/-- All that an operation writes may be delivered: the waiting documents and its own. -/
theorem Work.Sound.deliverable (h : work.Sound ground opened)
    (hdocument : ground.Built work collection id document)
    (htaken : ground.InUse work collection id) :
    ∀ write ∈ work.pending ++ [⟨collection, document⟩],
      Deliverable ground.context.registry (ground.Knows work) (ground.InUse work)
        write.collection write.document := by
  intro write hin
  rcases List.mem_append.mp hin with hin | hin
  · obtain ⟨own, hown, hwrite⟩ := h.waiting write hin
    exact hwrite.deliverable (Or.inl hown)
  · rw [List.mem_singleton.mp hin]
    exact hdocument.deliverable htaken

theorem identified_writtenTo {registry : Registry} {known taken : String → DocId → Prop}
    {writes : List PendingWrite}
    (h : ∀ write ∈ writes, Deliverable registry known taken write.collection write.document)
    (collection : String) : Identified (writtenTo collection writes) := by
  intro document hin
  obtain ⟨id, hid, _⟩ := (h _ (mem_writtenTo.mp hin)).taken
  exact ⟨id, hid⟩

/-- What was written is stored. -/
theorem MemoryStore.has_of_written {before after : MemoryStore} {writes : List PendingWrite}
    (hfound : ∀ other id, findDocument (after.documents other) id =
      (lastWritten writes other id).or (findDocument (before.documents other) id)) :
    ∀ write ∈ writes, ∀ id, write.document.id? = some id → after.Has write.collection id := by
  intro write hin id hid
  obtain ⟨last, hlast⟩ := exists_findDocument (List.mem_reverse.mpr (mem_writtenTo.mpr hin)) hid
  refine MemoryStore.has_iff_find.mpr ⟨last, ?_⟩
  rw [hfound, lastWritten, hlast]
  rfl

/-- Every id that was taken was stored, waited, or is that of the document itself; so it is stored
when all of these are. -/
theorem Work.Sound.taken_has (h : work.Sound ground (Build.opening collection [] document))
    (hdocument : ground.Built work collection id document) {store : MemoryStore}
    (hkept : ground.store.Retains store)
    (hwritten : ∀ write ∈ work.pending ++ [⟨collection, document⟩], ∀ own,
      write.document.id? = some own → store.Has write.collection own)
    {other : String} {own : DocId} (htaken : work.Taken other own) : store.Has other own := by
  rcases h.covered other own htaken with hhas | ⟨write, hin, rfl, hid⟩ | hopen
  · exact hkept other own hhas
  · exact hwritten write (List.mem_append_left _ hin) own hid
  · have hlast : (other, own) = (collection, id) := by
      simpa [Build.opening, hdocument.id] using hopen
    cases hlast
    exact hwritten ⟨collection, document⟩ (by simp) id hdocument.id

/-- After a commit that has stored all that was taken the store is ready again. -/
theorem Committing.ready {after : Work} {store : MemoryStore}
    (h : Committing ground.context.registry (ground.Knows work) ground.store (ground.InUse work)
      store after)
    (htaken : ∀ other own, work.Taken other own → store.Has other own) :
    Ready ground.context.registry ground.loose store after where
  sound := by
    refine h.sound.mono ?_
    rintro other own (hloose | hhas | hown)
    · exact Or.inl hloose
    · exact Or.inr (h.kept other own hhas)
    · exact Or.inr (htaken other own hown)
  follows := h.follows
  covered other own hown := by
    rcases (h.taken other own).mpr (Or.inl hown) with hown | hhas
    · exact htaken other own hown
    · exact h.kept other own hhas

end Built

variable (hbackend : database.backend.ActsLike view faults) (hregistry : database.registry.Proper)
  (hsource : database.source.Exact)
include hbackend hregistry hsource

theorem ground_sound {now : Instant} {store : σ}
    (h : (view store).Sound database.registry ((view store).Knows loose)) :
    (database.ground view now loose named store).Sound where
  registry := hregistry
  source := hsource
  state collection := hbackend.state store collection
  fetch collection id := hbackend.fetch store collection id
  stored := h

/-- **Building and committing.** Of each id the last write is what is stored. -/
theorem buildAndCommit_carries (hloose : faults → loose) {now : Instant} {collection : String}
    {step : Build Document}
    (hstep : (database.ground view now loose named running.store).Sound →
      Delivers (database.ground view now loose named running.store) collection step) :
    Carries database view loose named running (database.buildAndCommit now collection step)
      fun document after => ∃ built : Work,
        step (database.context now running.store) running.work.cleared = (.ok document, built) ∧
        (∀ write ∈ built.pending, ∃ id, write.document.id? = some id) ∧
        ∀ other id, findDocument ((view after.store).documents other) id =
          (lastWritten (built.pending ++ [⟨collection, document⟩]) other id).or
            (findDocument ((view running.store).documents other) id) := by
  intro hready
  let ground := database.ground view now loose named running.store
  have hground : ground.Sound := ground_sound hbackend hregistry hsource hready.sound
  have hcleared : running.work.cleared.Sound ground [] := hready.cleared.work_sound rfl
  refine ensures_bind.mpr (ensures_modify.mpr (ensures_bind.mpr (ensures_build.mpr ?_)))
  refine ((hstep hground _ hcleared).and ensures_self).mono ?_ ?_
  · rintro document built ⟨⟨hbuilt, _, id, hdocument, htaken⟩, heq⟩
    have hwaiting := hbuilt.deliverable hdocument htaken
    have hcommitting : Committing database.registry (ground.Knows built) (view running.store)
        (ground.InUse built) (view running.store) built := hbuilt.committing hground
    have hcommit : Ensures (database.commit collection document)
        ({ running with work := built } : Running σ) _ _ :=
      commit_ensures hbackend (fun write hin => hwaiting write (List.mem_append_left _ hin))
        (hdocument.deliverable htaken) hcommitting
    refine ensures_bind.mpr (hcommit.mono ?_ ?_)
    · rintro _ after ⟨hafter, _, hdocuments⟩
      have hfound : ∀ other id, findDocument ((view after.store).documents other) id =
          (lastWritten (built.pending ++ [⟨collection, document⟩]) other id).or
            (findDocument ((view running.store).documents other) id) := by
        intro other id
        rw [hdocuments other]
        exact findDocument_upsert (hready.sound.identified other)
          (identified_writtenTo hwaiting other) id
      have hwritten := MemoryStore.has_of_written hfound
      have hafter_ready : after.Ready database view loose :=
        hafter.ready fun other own hown => hbuilt.taken_has hdocument hafter.kept hwritten hown
      refine ⟨hafter_ready, hbuilt.advances hafter, hafter.kept, built, heq, ?_, hfound⟩
      intro write hin
      obtain ⟨own, _, hwrite⟩ := hbuilt.waiting write hin
      exact ⟨own, hwrite.id⟩
    · rintro e after ⟨hfaults, hreuse, hafter⟩
      exact ⟨⟨hafter.sound.mono fun _ _ _ => Or.inl (hloose hfaults), hbuilt.advances hafter⟩,
        hreuse⟩
  · rintro e built ⟨⟨_, hreuse⟩, _⟩
    exact ⟨⟨hready.sound, .refl _⟩, hreuse⟩

/-! ### Inserting and changing documents -/

/-- The ids that the input for a document names are among given ones. -/
def NamesOnly (registry : Registry) (named : String → DocId → Prop) (collection : String)
    (raw : Value) : Prop :=
  ∀ other id, Names registry (.document collection false) raw other id → named other id

/-- A document that may be changed: it has the id of a stored one, and conforms. -/
structure MemoryStore.Changeable (registry : Registry) (loose : Prop) (store : MemoryStore)
    (collection : String) (document : Document) : Prop where
  stored : ∃ id, document.id? = some id ∧ store.Has collection id
  conform : ∃ tree, registry.tree? collection = some tree ∧
    Conforms registry (store.Knows loose) tree document

omit hbackend hregistry hsource in
theorem MemoryStore.Changeable.retained {registry : Registry} {before after : MemoryStore}
    {collection : String} {document : Document}
    (h : before.Changeable registry loose collection document) (hretains : before.Retains after) :
    after.Changeable registry loose collection document where
  stored := by
    obtain ⟨id, hid, hhas⟩ := h.stored
    exact ⟨id, hid, hretains collection id hhas⟩
  conform := by
    obtain ⟨tree, htree, hconforms⟩ := h.conform
    exact ⟨tree, htree, hconforms.mono (MemoryStore.knows_retained hretains)⟩

omit hbackend hregistry hsource in
/-- The documents of a sound store may be changed. -/
theorem MemoryStore.Sound.changeable {registry : Registry} {store : MemoryStore}
    (h : store.Sound registry (store.Knows loose)) {collection : String} {document : Document}
    (hin : document ∈ store.documents collection) :
    store.Changeable registry loose collection document where
  stored := by
    obtain ⟨id, hid⟩ := h.identified collection document hin
    exact ⟨id, hid, document, hin, hid⟩
  conform := h.conform collection document hin

section Delivery
variable {ground : Ground} {collection : String} {raw : Value}

omit hbackend hregistry hsource in
theorem inputObject_keeps {opened : List (String × DocId)} {work : Work} :
    Keeps ground opened work (Build.inputObject collection raw)
      fun input _ => raw = .object input := by
  unfold Build.inputObject
  split
  · exact keeps_pure rfl
  · exact Build.mismatch_keeps

omit hbackend hregistry hsource in
theorem create_delivers (hground : ground.Sound)
    (hinput : ground.Permits (.document collection false) raw) :
    Delivers ground collection (Build.create collection raw) := by
  intro work
  refine Opens.bind inputObject_keeps ?_
  rintro input after _ rfl
  refine (Build.insertDocument_opens hground _ collection input none hinput).mono ?_
  rintro document last _ ⟨id, htaken, hbuilt⟩
  exact ⟨id, hbuilt, Or.inl htaken⟩

omit hbackend hregistry hsource in
theorem change_delivers (hground : ground.Sound) {existing : Document}
    (hexisting : ground.store.Changeable ground.context.registry ground.loose collection existing)
    (hpatch : ground.Permits (.document collection false) raw) :
    Delivers ground collection (Build.change collection existing raw) := by
  intro work
  refine Opens.bind inputObject_keeps ?_
  rintro patch after _ rfl
  obtain ⟨id, hid, hhas⟩ := hexisting.stored
  obtain ⟨tree, htree, hconforms⟩ := hexisting.conform
  have hbuilt : ground.Built after collection id existing := by
    refine ⟨hid, tree, htree, hconforms.mono ?_⟩
    rintro other own (hloose | hhas)
    · exact Or.inl hloose
    · exact Or.inr (Or.inl hhas)
  intro hafter
  refine (Build.updateDocument_keeps hground _ collection existing patch hbuilt hpatch
    hafter).mono ?_ fun _ _ h => h
  rintro document last ⟨hlast, hgrows, hdone⟩
  exact ⟨hlast.more_opened (by simp), hgrows, id, hdone, Or.inr hhas⟩

end Delivery

variable (hloose : faults → loose) {collection : Collection σ}
  (hcollection : collection.database = database)
include hloose hcollection

/-- **Inserting a document.** -/
theorem insertOne_carries {now : Instant} {raw : Value}
    (hraw : NamesOnly database.registry named collection.name raw) :
    Carries database view loose named running (collection.insertOne now raw)
      fun _ _ => True := by
  subst hcollection
  exact (buildAndCommit_carries hbackend hregistry hsource hloose
    fun hground => create_delivers hground hraw).mono fun _ _ _ => trivial

theorem insertAll_carries {now : Instant} {raws : List Value}
    (hraws : ∀ raw ∈ raws, NamesOnly database.registry named collection.name raw) :
    Carries database view loose named running (collection.insertAll now raws)
      fun _ _ => True := by
  induction raws generalizing running with
  | nil => exact carries_pure trivial
  | cons raw rest ih =>
    refine Carries.bind (insertOne_carries hbackend hregistry hsource hloose hcollection
      (hraws raw List.mem_cons_self)) fun first after _ _ => ?_
    refine Carries.bind (ih fun raw hin => hraws raw (List.mem_cons_of_mem _ hin))
      fun others last _ _ => ?_
    exact carries_pure trivial

/-- **Changing a document.** -/
theorem changeOne_carries {now : Instant} {existing : Document} {patch : Value}
    (hexisting : (view running.store).Changeable database.registry loose collection.name existing)
    (hpatch : NamesOnly database.registry named collection.name patch) :
    Carries database view loose named running (collection.changeOne now existing patch)
      fun _ _ => True := by
  subst hcollection
  exact (buildAndCommit_carries hbackend hregistry hsource hloose
    fun hground => change_delivers hground hexisting hpatch).mono fun _ _ _ => trivial

theorem changeAll_carries {now : Instant} {existing : List Document} {patch : Value}
    (hexisting : ∀ document ∈ existing,
      (view running.store).Changeable database.registry loose collection.name document)
    (hpatch : NamesOnly database.registry named collection.name patch) :
    Carries database view loose named running (collection.changeAll now patch existing)
      fun _ _ => True := by
  induction existing generalizing running with
  | nil => exact carries_pure trivial
  | cons document rest ih =>
    refine Carries.bind (changeOne_carries hbackend hregistry hsource hloose hcollection
      (hexisting document List.mem_cons_self) hpatch) fun first after hretains _ => ?_
    refine Carries.bind (ih fun other hin =>
      (hexisting other (List.mem_cons_of_mem _ hin)).retained hretains) fun others last _ _ => ?_
    exact carries_pure trivial

end Carrying

end DocumentDb
