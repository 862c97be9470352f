import DocumentDb.Proofs.Database.Runs
import DocumentDb.Proofs.Document.Vetting

/-!
# What a database keeps up

A property of stores that single writes keep, as long as the documents that they store are accepted
and fit into shards, is kept by every call, whether it succeeds or fails, and so along every run
(`Reaches.upheld`). For what the builder lets wait is accepted and fits, and nothing else is ever
stored.

This is used for different stores, so nothing is said of how writes act, but for stores that act
like stores in memory (`Backend.ActsLike.upholds`): these hold the documents that were accepted.
-/

namespace DocumentDb

/-- **Single writes of a database keep a property of its stores**, if what they store is accepted
and fits; in return the builder accepts what it builds on such a store. -/
structure Database.Upholds {σ : Type} (database : Database σ) (shardMax : Nat)
    (accepted : String → Document → Prop) (kept : σ → Prop) : Prop where
  vetting : ∀ now store, kept store → Vetting (database.context now store) shardMax accepted
  all : ∀ store, kept store → ∀ collection documents,
    database.backend.all store collection = .ok documents →
      ∀ document ∈ documents, accepted collection document
  persist : ∀ store, kept store → ∀ collection documents,
    (∀ document ∈ documents, document.FitsShard shardMax ∧ accepted collection document) →
      kept (database.backend.persist collection documents store).2
  remove : ∀ store, kept store → ∀ collection ids,
    kept (database.backend.remove collection ids store).2
  record : ∀ store, kept store → ∀ collection count,
    kept (database.backend.record collection count store).2

/-- **A database between the steps of an operation**: its store is as it is kept, and its work is
vetted. -/
structure Running.Upheld {σ : Type} (registry : Registry) (shardMax : Nat)
    (accepted : String → Document → Prop) (kept : σ → Prop) (running : Running σ) : Prop where
  store : kept running.store
  vetted : running.work.Vetted registry shardMax accepted

namespace Work
variable {registry : Registry} {shardMax : Nat} {accepted : String → Document → Prop} {work : Work}

theorem vetted_fresh : work.fresh.Vetted registry shardMax accepted := ⟨nofun, nofun⟩

theorem Vetted.cleared (h : work.Vetted registry shardMax accepted) :
    work.cleared.Vetted registry shardMax accepted := ⟨h.spaces, nofun⟩

theorem Vetted.recorded (h : work.Vetted registry shardMax accepted) (collection : String)
    (count : Nat) : (work.recorded collection count).Vetted registry shardMax accepted := by
  refine ⟨fun space hin => ?_, h.waiting⟩
  obtain ⟨before, hbefore, rfl⟩ := List.mem_map.mp hin
  obtain ⟨hrule, hshardMax⟩ := h.spaces before hbefore
  split_ifs
  · exact ⟨hrule, hshardMax⟩
  · exact ⟨hrule, hshardMax⟩

end Work

section Upkeep
variable {σ α β : Type} {database : Database σ} {shardMax : Nat}
  {accepted : String → Document → Prop} {kept : σ → Prop}

/-- **A part of an operation keeps up** the store and the work, and its value is as `done` says. -/
def KeepsUp (database : Database σ) (shardMax : Nat)
    (accepted : String → Document → Prop) (kept : σ → Prop) (step : Operation σ α)
    (done : α → Prop) : Prop :=
  ∀ running : Running σ, running.Upheld database.registry shardMax accepted kept →
    Ensures step running
      (fun a after => after.Upheld database.registry shardMax accepted kept ∧ done a)
      (fun _ after => after.Upheld database.registry shardMax accepted kept)

theorem KeepsUp.bind {first : Operation σ α} {next : α → Operation σ β} {middle : α → Prop}
    {done : β → Prop} (hfirst : KeepsUp database shardMax accepted kept first middle)
    (hnext : ∀ a, middle a → KeepsUp database shardMax accepted kept (next a) done) :
    KeepsUp database shardMax accepted kept (first >>= next) done := fun running hrunning =>
  Ensures.bind (hfirst running hrunning) fun a after h => hnext a h.2 after h.1

theorem KeepsUp.map {step : Operation σ α}
    (h : KeepsUp database shardMax accepted kept step fun _ => True) (f : α → β) :
    KeepsUp database shardMax accepted kept (f <$> step) fun _ => True := fun running hrunning =>
  ensures_map.mpr ((h running hrunning).mono (fun _ _ h => ⟨h.1, trivial⟩) fun _ _ h => h)

theorem keepsUp_pure {a : α} {done : α → Prop} (h : done a) :
    KeepsUp database shardMax accepted kept (pure a) done := fun _ hrunning => ⟨hrunning, h⟩

theorem keepsUp_throw {e : Error} {done : α → Prop} :
    KeepsUp database shardMax accepted kept (throw e : Operation σ α) done :=
  fun _ hrunning => hrunning

/-- A look at the store. -/
theorem keepsUp_look {read : σ → Except Error α} {done : α → Prop}
    (h : ∀ store a, kept store → read store = .ok a → done a) :
    KeepsUp database shardMax accepted kept (Operation.look read) done := by
  intro running hrunning
  unfold Ensures Operation.look
  cases hread : read running.store with
  | ok a => exact ⟨hrunning, h running.store a hrunning.store hread⟩
  | error e => exact hrunning

/-- A change of the work alone keeps up if it keeps the work vetted. -/
theorem keepsUp_work {change : Work → Work}
    (h : ∀ work : Work, work.Vetted database.registry shardMax accepted →
      (change work).Vetted database.registry shardMax accepted) :
    KeepsUp database shardMax accepted kept
      (modify fun running => { running with work := change running.work }) fun _ => True :=
  fun _ hrunning => ⟨⟨hrunning.store, h _ hrunning.vetted⟩, trivial⟩

theorem keepsUp_start :
    KeepsUp database shardMax accepted kept Operation.start fun _ => True :=
  keepsUp_work fun _ _ => Work.vetted_fresh

/-- A write keeps up if it keeps the property of the store in any case. -/
theorem keepsUp_write {change : Write σ α} (h : ∀ store, kept store → kept (change store).2) :
    KeepsUp database shardMax accepted kept (Operation.write change) fun _ => True := by
  intro running hrunning
  refine ensures_write.mpr ((ensures_of_state (h running.store hrunning.store)).mono ?_ ?_)
  · exact fun _ store hstore => ⟨⟨hstore, hrunning.vetted⟩, trivial⟩
  · exact fun _ store hstore => ⟨hstore, hrunning.vetted⟩

variable (hupholds : database.Upholds shardMax accepted kept) {now : Instant}
include hupholds

theorem keepsUp_build {step : Build α} {done : α → Prop}
    (hstep : ∀ store, Vetting (database.context now store) shardMax accepted →
      Build.Vets (database.context now store) shardMax accepted step done) :
    KeepsUp database shardMax accepted kept (database.build now step) done := by
  intro running hrunning
  have hvetting := hupholds.vetting now running.store hrunning.store
  refine ensures_build.mpr ((hstep running.store hvetting _ hrunning.vetted).mono ?_ ?_)
  · exact fun a work h => ⟨⟨hrunning.store, h.1⟩, h.2⟩
  · exact fun e work h => ⟨hrunning.store, h⟩

theorem recordAll_keepsUp (counters : List (String × Nat)) :
    KeepsUp database shardMax accepted kept (database.recordAll counters) fun _ => True := by
  induction counters with
  | nil => exact keepsUp_pure trivial
  | cons entry rest ih =>
    refine (keepsUp_write fun store hstore => hupholds.record store hstore _ _).bind fun _ _ => ?_
    exact (keepsUp_work fun _ hwork => hwork.recorded _ _).bind fun _ _ => ih

theorem persistGroups_keepsUp {groups : List (String × List Document)}
    (hgroups : ∀ group ∈ groups, ∀ document ∈ group.2,
      document.FitsShard shardMax ∧ accepted group.1 document) :
    KeepsUp database shardMax accepted kept (database.persistGroups groups) fun _ => True := by
  induction groups with
  | nil => exact keepsUp_pure trivial
  | cons group rest ih =>
    obtain ⟨hgroup, hrest⟩ := List.forall_mem_cons.mp hgroups
    have hpersist : KeepsUp database shardMax accepted kept
        (Operation.write (database.backend.persist group.1 group.2)) fun _ => True :=
      keepsUp_write fun store hstore => hupholds.persist store hstore _ _ hgroup
    exact hpersist.bind fun _ _ => ih hrest

/-- **A commit keeps up**: what waits fits and is accepted, and so is the document itself. -/
theorem commit_keepsUp {collection : String} {document : Document}
    (hdocument : document.FitsShard shardMax ∧ accepted collection document) :
    KeepsUp database shardMax accepted kept (database.commit collection document)
      fun _ => True := by
  have hcounters : KeepsUp database shardMax accepted kept database.recordCounters fun _ => True :=
    fun running => recordAll_keepsUp hupholds running.work.movedCounters running
  refine hcounters.bind fun _ _ running hrunning => ensures_bind.mpr (ensures_get.mpr ?_)
  have hgroups : ∀ group ∈ groups running.work.pending, ∀ other ∈ group.2,
      other.FitsShard shardMax ∧ accepted group.1 other := by
    intro group hgroup other hother
    have hin := mem_groupOf hgroup hother
    rw [groupOf_groups, mem_writtenTo] at hin
    have hwaiting := hrunning.vetted.waiting _ hin
    exact hwaiting
  refine (persistGroups_keepsUp hupholds hgroups).bind (fun _ _ => keepsUp_write ?_) running
    hrunning
  exact fun store hstore =>
    hupholds.persist store hstore _ _ (List.forall_mem_singleton.mpr hdocument)

theorem buildAndCommit_keepsUp {collection : String} {step : Build Document}
    (hstep : ∀ store, Vetting (database.context now store) shardMax accepted →
      Build.Vets (database.context now store) shardMax accepted step
        fun document => document.FitsShard shardMax ∧ accepted collection document) :
    KeepsUp database shardMax accepted kept (database.buildAndCommit now collection step)
      fun _ => True := by
  refine (keepsUp_work fun _ hwork => hwork.cleared).bind fun _ _ => ?_
  refine (keepsUp_build hupholds hstep).bind fun document hdocument => ?_
  exact (commit_keepsUp hupholds hdocument).bind fun _ _ => keepsUp_pure trivial

end Upkeep

/-! ### Calls -/

section Calls
variable {σ : Type} {collection : Collection σ} {shardMax : Nat}
  {accepted : String → Document → Prop} {kept : σ → Prop}
  (hupholds : collection.database.Upholds shardMax accepted kept) {now : Instant}
include hupholds

theorem findById_accepted {id : DocId} {store : σ} {document : Document} (hstore : kept store)
    (h : collection.findById id store = .ok document) : accepted collection.name document := by
  obtain ⟨found, hfound, h⟩ := bind_ok_iff.mp h
  cases found with
  | none => cases h
  | some found =>
    cases h
    exact (hupholds.vetting ⟨0, 0⟩ store hstore).fetched _ _ _ hfound

theorem selected_accepted {query : Query} {store : σ} {documents : List Document}
    (hstore : kept store) (h : collection.selected query store = .ok documents) :
    ∀ document ∈ documents, accepted collection.name document := by
  obtain ⟨_, _, h⟩ := bind_ok_iff.mp h
  obtain ⟨all, hall, h⟩ := bind_ok_iff.mp h
  cases h
  exact fun document hin =>
    hupholds.all store hstore _ all hall document (List.mem_filter.mp hin).1

theorem insertOne_keepsUp {raw : Value} : KeepsUp collection.database shardMax accepted kept
    (collection.insertOne now raw) fun _ => True :=
  buildAndCommit_keepsUp hupholds fun _ hvetting => Build.create_vets hvetting

theorem changeOne_keepsUp {existing : Document} {patch : Value}
    (hexisting : accepted collection.name existing) :
    KeepsUp collection.database shardMax accepted kept (collection.changeOne now existing patch)
      fun _ => True :=
  buildAndCommit_keepsUp hupholds fun _ hvetting => Build.change_vets hvetting hexisting

theorem insertAll_keepsUp {raws : List Value} : KeepsUp collection.database shardMax accepted kept
    (collection.insertAll now raws) fun _ => True := by
  induction raws with
  | nil => exact keepsUp_pure trivial
  | cons raw rest ih =>
    refine (insertOne_keepsUp hupholds).bind fun first _ => ih.bind fun others _ => ?_
    exact keepsUp_pure trivial

theorem changeAll_keepsUp {patch : Value} {existing : List Document}
    (hexisting : ∀ document ∈ existing, accepted collection.name document) :
    KeepsUp collection.database shardMax accepted kept (collection.changeAll now patch existing)
      fun _ => True := by
  induction existing with
  | nil => exact keepsUp_pure trivial
  | cons document rest ih =>
    obtain ⟨hdocument, hrest⟩ := List.forall_mem_cons.mp hexisting
    refine (changeOne_keepsUp hupholds hdocument).bind fun first _ => ?_
    exact (ih hrest).bind fun others _ => keepsUp_pure trivial

theorem remove_keepsUp {name : String} {ids : List DocId} :
    KeepsUp collection.database shardMax accepted kept
      (Operation.write (collection.database.backend.remove name ids)) fun _ => True :=
  keepsUp_write fun store hstore => hupholds.remove store hstore name ids

theorem changeList_keepsUp {id : DocId} {path : String}
    {edit : Element → List Value → Build (List Value)}
    (hedit : ∀ store, Vetting (collection.database.context now store) shardMax accepted →
      ∀ element current, Build.Vets (collection.database.context now store) shardMax accepted
        (edit element current) fun _ => True) :
    KeepsUp collection.database shardMax accepted kept (collection.changeList now id path edit)
      fun _ => True := by
  refine (keepsUp_look fun _ _ _ _ => trivial).bind fun element _ => ?_
  refine (keepsUp_look fun _ _ hstore h => findById_accepted hupholds hstore h).bind
    fun existing hexisting => ?_
  refine (keepsUp_look fun _ _ _ _ => trivial).bind fun current _ => ?_
  refine keepsUp_start.bind fun _ _ => ?_
  refine (keepsUp_build hupholds fun store hvetting => hedit store hvetting _ _).bind
    fun items _ => ?_
  exact changeOne_keepsUp hupholds hexisting

/-- **A call keeps up** the store and the work, whether it succeeds or fails. -/
theorem perform_keepsUp (call : Call) : KeepsUp collection.database shardMax accepted kept
    (collection.perform now call) fun _ => True := by
  cases call with
  | insert raw => exact (keepsUp_start.bind fun _ _ => insertOne_keepsUp hupholds).map _
  | insertMany raws => exact (keepsUp_start.bind fun _ _ => insertAll_keepsUp hupholds).map _
  | updateById id patch =>
    refine KeepsUp.map ((keepsUp_look fun _ _ hstore h =>
      findById_accepted hupholds hstore h).bind fun existing hexisting => ?_) _
    exact keepsUp_start.bind fun _ _ => changeOne_keepsUp hupholds hexisting
  | updateMany query patch =>
    refine KeepsUp.map ((keepsUp_look fun _ _ hstore h =>
      selected_accepted hupholds hstore h).bind fun existing hexisting => ?_) _
    exact keepsUp_start.bind fun _ _ => changeAll_keepsUp hupholds hexisting
  | deleteById id =>
    refine (remove_keepsUp hupholds).bind fun removed _ => ?_
    cases removed with
    | zero => exact keepsUp_throw
    | succ => exact keepsUp_pure trivial
  | deleteMany query =>
    refine KeepsUp.map ((keepsUp_look fun _ _ _ _ => trivial).bind fun documents _ => ?_) _
    dsimp only
    split_ifs
    · exact keepsUp_pure trivial
    · exact remove_keepsUp hupholds
  | insertInto id path values =>
    exact (changeList_keepsUp hupholds fun _ hvetting element current =>
      Build.insertItems_vets hvetting).map _
  | removeFrom id path values =>
    exact (changeList_keepsUp hupholds fun _ _ _ _ => Build.vets_pure trivial).map _
  | updateArray id path matcher updates =>
    exact (changeList_keepsUp hupholds fun _ _ _ _ =>
      Build.vets_lift.mono fun _ _ => trivial).map _

/-- What holds of the database after a call. -/
theorem perform_upheld (now : Instant) (call : Call) {running : Running σ}
    (h : running.Upheld collection.database.registry shardMax accepted kept) :
    (collection.perform now call running).2.Upheld collection.database.registry shardMax accepted
      kept :=
  ((perform_keepsUp hupholds call running h).mono (fun _ _ h => h.1) fun _ _ h => h).state

end Calls

/-- **Along every run a database keeps up** the store and the work. -/
theorem Reaches.upheld {σ : Type} {database : Database σ} {shardMax : Nat}
    {accepted : String → Document → Prop} {kept : σ → Prop}
    (hupholds : database.Upholds shardMax accepted kept) {allowed : Call → Prop}
    {running after : Running σ} (hreaches : database.Reaches allowed running after)
    (h : running.Upheld database.registry shardMax accepted kept) :
    after.Upheld database.registry shardMax accepted kept := by
  induction hreaches with
  | refl => exact h
  | tail _ hstep ih =>
    obtain ⟨hcollection, -⟩ := hstep
    next name collection now call =>
      obtain ⟨rfl, -⟩ := collection_ok hcollection
      exact perform_upheld hupholds now call ih

/-! ### Stores that act like stores in memory -/

/-- **A store in memory holds** documents that fit into shards and are accepted. -/
structure MemoryStore.Holds (shardMax : Nat) (accepted : String → Document → Prop)
    (store : MemoryStore) : Prop where
  limit : store.shardMax = shardMax
  each : ∀ collection, ∀ document ∈ store.documents collection,
    document.FitsShard shardMax ∧ accepted collection document

namespace MemoryStore.Holds

variable {shardMax : Nat} {accepted : String → Document → Prop} {store : MemoryStore}

theorem persist (h : store.Holds shardMax accepted) {collection : String}
    {documents : List Document} (hnew : ∀ document ∈ documents,
      document.FitsShard shardMax ∧ accepted collection document) :
    (store.persist collection documents).Holds shardMax accepted where
  limit := h.limit
  each other document hin := by
    rw [documents_persist] at hin
    split_ifs at hin with heq
    · subst heq
      exact (mem_of_mem_upsert hin).elim (hnew document) (h.each collection document)
    · exact h.each other document hin

theorem remove (h : store.Holds shardMax accepted) {collection : String} {ids : List DocId} :
    (store.remove collection ids).Holds shardMax accepted where
  limit := h.limit
  each other document hin := by
    rw [documents_remove] at hin
    split_ifs at hin
    · exact h.each other document (mem_withoutIds.mp hin).1
    · exact h.each other document hin

theorem record (h : store.Holds shardMax accepted) {collection : String} {count : Nat} :
    (store.record collection count).Holds shardMax accepted where
  limit := h.limit
  each other document hin := by
    rw [documents_record] at hin
    exact h.each other document hin

end MemoryStore.Holds

/-- Where single writes act as in memory, it is enough that the builder accepts what it builds. -/
theorem Backend.ActsLike.upholds {σ : Type} {database : Database σ} {view : σ → MemoryStore}
    {faults : Prop} {shardMax : Nat} {accepted : String → Document → Prop}
    (hbackend : database.backend.ActsLike view faults)
    (hvetting : ∀ now store, (view store).Holds shardMax accepted →
      Vetting (database.context now store) shardMax accepted) :
    database.Upholds shardMax accepted fun store => (view store).Holds shardMax accepted where
  vetting := hvetting
  all store h collection documents hall := by
    rw [hbackend.all] at hall
    cases hall
    exact fun document hin => (h.each collection document hin).2
  persist store h collection documents hnew :=
    ((hbackend.persist store collection documents).mono (fun _ _ hafter => hafter ▸ h.persist hnew)
      fun _ _ hafter => hafter.2.2 ▸ h).state
  remove store h collection ids :=
    ((hbackend.remove store collection ids).mono (fun _ _ hafter => hafter ▸ h.remove)
      fun _ _ hafter => hafter.elim).state
  record store h collection count :=
    ((hbackend.record store collection count).mono (fun _ _ hafter => hafter ▸ h.record)
      fun _ _ hafter => hafter.2.2 ▸ h).state

/-- **Along a run from an empty store** the stored documents fit and are accepted, if the builder
accepts what it builds where those in the store are. -/
theorem Reaches.holds {σ : Type} {database : Database σ} {view : σ → MemoryStore} {faults : Prop}
    {accepted : String → Document → Prop} (hbackend : database.backend.ActsLike view faults)
    {empty : σ} (hempty : ∀ name, (view empty).documents name = [])
    (hvetting : ∀ now store,
      (∀ collection state, (database.context now store).state collection = .ok state →
        state.shardMax = (view empty).shardMax) →
      (∀ collection id document,
        (database.context now store).fetch collection id = .ok (some document) →
          accepted collection document) →
      Vetting (database.context now store) (view empty).shardMax accepted)
    {allowed : Call → Prop} {running : Running σ}
    (hreaches : database.Reaches allowed { store := empty } running) :
    (view running.store).Holds (view empty).shardMax accepted := by
  have hupholds : database.Upholds (view empty).shardMax accepted
      fun store => (view store).Holds (view empty).shardMax accepted := by
    refine hbackend.upholds fun now store hholds => ?_
    refine hvetting now store (fun collection state hstate => ?_)
      fun collection id document hdocument => ?_
    · have hstate : database.backend.state store collection = .ok state := hstate
      rw [hbackend.state] at hstate
      obtain ⟨ids, -, hstate⟩ := bind_ok_iff.mp hstate
      cases hstate
      exact hholds.limit
    · have hfetch : database.backend.fetch store collection id = .ok (some document) := hdocument
      rw [hbackend.fetch] at hfetch
      have hfound := findDocument_eq_some (Except.ok.inj hfetch)
      exact (hholds.each collection document hfound.1).2
  have hstart : (view empty).Holds (view empty).shardMax accepted :=
    ⟨rfl, fun collection document hin => by rw [hempty] at hin; cases hin⟩
  exact (Reaches.upheld hupholds hreaches ⟨hstart, nofun, nofun⟩).store

end DocumentDb
