import DocumentDb.Proofs.Database.Calls

/-!
# Tracing writes

What a call does between its beginning and its end is seen by running the same call on a store that
keeps a record of every write that is tried on it: the state before the write and, if it fails, the
error (`Attempt`). Nothing else differs: without the record, the traced call is the call itself
(`traces_perform`).
-/

namespace DocumentDb

/-- A write that was tried on a store. -/
structure Attempt (σ : Type) where
  /-- The store before the write. -/
  before : σ
  /-- Why the write failed, if it did. -/
  error : Option Error

/-- A store with the writes that were tried on it. -/
structure Traced (σ : Type) where
  store : σ
  attempts : List (Attempt σ) := []

section Tracing
variable {σ α β : Type}

/-- Why a result is an error, if it is one. -/
def errorOf : Except Error α → Option Error
  | .ok _ => none
  | .error e => some e

/-- A write that is recorded. -/
def Traced.write (change : Write σ α) : Write (Traced σ) α := fun traced =>
  let (result, store) := change traced.store
  (result, { store, attempts := traced.attempts ++ [⟨traced.store, errorOf result⟩] })

/-- A store that records what is written to it. -/
def Backend.traced (backend : Backend σ) : Backend (Traced σ) where
  state traced := backend.state traced.store
  fetch traced := backend.fetch traced.store
  all traced := backend.all traced.store
  persist collection documents := Traced.write (backend.persist collection documents)
  remove collection ids := Traced.write (backend.remove collection ids)
  record collection count := Traced.write (backend.record collection count)

/-- A database on a store that records what is written to it. -/
def Database.traced (database : Database σ) : Database (Traced σ) where
  registry := database.registry
  backend := database.backend.traced
  source := database.source

namespace Collection

/-- A collection of a database on a store that records what is written to it. -/
def traced (collection : Collection σ) : Collection (Traced σ) where
  database := collection.database.traced
  tree := collection.tree

/-- **The writes that a call tries**, in their order. -/
def attempts (collection : Collection σ) (now : Instant) (call : Call) (running : Running σ) :
    List (Attempt σ) :=
  (collection.traced.perform now call { store := ⟨running.store, []⟩, work := running.work }).2
    |>.store.attempts

end Collection

/-- The state of a database in use without the record. -/
def Running.plain (running : Running (Traced σ)) : Running σ where
  store := running.store.store
  work := running.work

/-! ### Traced steps -/

/-- **A traced step is a step with a record.** -/
def Traces (traced : Operation (Traced σ) α) (plain : Operation σ α) : Prop :=
  ∀ running, plain running.plain = ((traced running).1, (traced running).2.plain)

theorem Traces.bind {first : Operation (Traced σ) α} {plainFirst : Operation σ α}
    {next : α → Operation (Traced σ) β} {plainNext : α → Operation σ β}
    (hfirst : Traces first plainFirst) (hnext : ∀ a, Traces (next a) (plainNext a)) :
    Traces (first >>= next) (plainFirst >>= plainNext) := by
  intro running
  rw [step_bind, step_bind, hfirst running]
  rcases first running with ⟨result, after⟩
  cases result with
  | error e => rfl
  | ok a => exact hnext a after

theorem traces_pure (a : α) : Traces (pure a : Operation (Traced σ) α) (pure a) := fun _ => rfl

theorem traces_throw (e : Error) : Traces (throw e : Operation (Traced σ) α) (throw e) :=
  fun _ => rfl

theorem Traces.map {step : Operation (Traced σ) α} {plain : Operation σ α}
    (h : Traces step plain) (f : α → β) : Traces (f <$> step) (f <$> plain) := by
  rw [map_eq_pure_bind, map_eq_pure_bind]
  exact h.bind fun a => traces_pure (f a)

theorem traces_look {read : Traced σ → Except Error α} {plain : σ → Except Error α}
    (h : ∀ traced, read traced = plain traced.store) :
    Traces (Operation.look read) (Operation.look plain) := fun running =>
  Prod.ext (h running.store).symm rfl

theorem traces_write (change : Write σ α) :
    Traces (Operation.write (Traced.write change)) (Operation.write change) := fun _ => rfl

theorem traces_start : Traces (Operation.start : Operation (Traced σ) Unit) Operation.start :=
  fun _ => rfl

variable (database : Database σ)

theorem traces_build (now : Instant) (step : Build α) :
    Traces (database.traced.build now step) (database.build now step) := fun _ => rfl

theorem traces_recordAll (counters : List (String × Nat)) :
    Traces (database.traced.recordAll counters) (database.recordAll counters) := by
  induction counters with
  | nil => exact traces_pure ()
  | cons entry rest ih =>
    refine (traces_write _).bind fun _ => Traces.bind (fun _ => rfl) fun _ => ih

theorem traces_persistGroups (groups : List (String × List Document)) :
    Traces (database.traced.persistGroups groups) (database.persistGroups groups) := by
  induction groups with
  | nil => exact traces_pure ()
  | cons group rest ih => exact (traces_write _).bind fun _ => ih

theorem traces_commit (collection : String) (document : Document) :
    Traces (database.traced.commit collection document) (database.commit collection document) := by
  have hcounters : Traces database.traced.recordCounters database.recordCounters :=
    fun running => traces_recordAll database running.work.movedCounters running
  refine hcounters.bind fun _ => Traces.bind (fun running => ?_) fun _ => traces_write _
  exact traces_persistGroups database (groups running.work.pending) running

theorem traces_buildAndCommit (now : Instant) (collection : String) (step : Build Document) :
    Traces (database.traced.buildAndCommit now collection step)
      (database.buildAndCommit now collection step) := by
  refine Traces.bind (fun _ => rfl) fun _ => ?_
  refine (traces_build database now step).bind fun document => ?_
  exact (traces_commit database collection document).bind fun _ => traces_pure document

/-! ### Traced calls -/

variable (collection : Collection σ) (now : Instant)

theorem traces_insertAll (raws : List Value) :
    Traces (collection.traced.insertAll now raws) (collection.insertAll now raws) := by
  induction raws with
  | nil => exact traces_pure []
  | cons raw rest ih =>
    refine (traces_buildAndCommit _ now _ _).bind fun first => ih.bind fun others => ?_
    exact traces_pure (first :: others)

theorem traces_changeAll (patch : Value) (existing : List Document) :
    Traces (collection.traced.changeAll now patch existing)
      (collection.changeAll now patch existing) := by
  induction existing with
  | nil => exact traces_pure []
  | cons document rest ih =>
    refine (traces_buildAndCommit _ now _ _).bind fun first => ih.bind fun others => ?_
    exact traces_pure (first :: others)

theorem traces_changeList (id : DocId) (path : String)
    (edit : Element → List Value → Build (List Value)) :
    Traces (collection.traced.changeList now id path edit)
      (collection.changeList now id path edit) := by
  refine (traces_look fun _ => rfl).bind fun element => (traces_look fun _ => rfl).bind
    fun existing => (traces_look fun _ => rfl).bind fun current => traces_start.bind fun _ => ?_
  exact (traces_build _ now _).bind fun items => traces_buildAndCommit _ now _ _

theorem traces_deleteById (id : DocId) :
    Traces (collection.traced.deleteById id) (collection.deleteById id) := by
  refine (traces_write _).bind fun removed => ?_
  cases removed with
  | zero => exact traces_throw _
  | succ => exact traces_pure ()

theorem traces_deleteMany (query : Query) :
    Traces (collection.traced.deleteMany query) (collection.deleteMany query) := by
  refine (traces_look fun _ => rfl).bind fun documents => ?_
  dsimp only
  split_ifs
  · exact traces_pure 0
  · exact traces_write _

/-- **A traced call is the call with a record.** -/
theorem traces_perform (call : Call) :
    Traces (collection.traced.perform now call) (collection.perform now call) := by
  cases call with
  | insert raw => exact (traces_start.bind fun _ => traces_buildAndCommit _ now _ _).map _
  | insertMany raws => exact (traces_start.bind fun _ => traces_insertAll _ now raws).map _
  | updateById id patch =>
    refine Traces.map ((traces_look fun _ => rfl).bind fun existing => ?_) _
    exact traces_start.bind fun _ => traces_buildAndCommit _ now _ _
  | updateMany query patch =>
    refine Traces.map ((traces_look fun _ => rfl).bind fun existing => ?_) _
    exact traces_start.bind fun _ => traces_changeAll _ now patch existing
  | deleteById id => exact traces_deleteById _ id
  | deleteMany query => exact (traces_deleteMany _ query).map _
  | insertInto id path values => exact (traces_changeList _ now id path _).map _
  | removeFrom id path values => exact (traces_changeList _ now id path _).map _
  | updateArray id path matcher updates => exact (traces_changeList _ now id path _).map _

end Tracing

end DocumentDb
