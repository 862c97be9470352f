import DocumentDb.Proofs.Database.Calls
import DocumentDb.Proofs.Schema.Proper
import Mathlib.Logic.Relation

/-!
# Runs of a database

A run is any sequence of calls on the collections of a database, successful or failing. What one
call ensures of a sound store holds along every run (`Reaches.sound`), and counters never fall
(`Reaches.counts`).

If writes never fail and the run removes nothing, references name stored documents only.
-/

namespace DocumentDb

/-- A schema that was compiled from definitions in which no object has a key twice. -/
def Registry.Compiled (registry : Registry) : Prop :=
  ∃ shardMax definitions, Registry.compile shardMax definitions = .ok registry ∧
    ∀ definition ∈ definitions, (Value.object definition.declarations).KeysOnce

theorem Registry.Compiled.proper {registry : Registry} (h : registry.Compiled) :
    registry.Proper := by
  obtain ⟨_, _, hcompile, hkeys⟩ := h
  exact Registry.compile_proper hcompile hkeys

section Runs
variable {σ : Type}

/-- A call on a collection of a database, whether it succeeds or fails. -/
inductive Database.Step (database : Database σ) (allowed : Call → Prop) :
    Running σ → Running σ → Prop
  | call {running : Running σ} {name : String} {collection : Collection σ} {now : Instant}
    {call : Call} (hcollection : database.collection name = .ok collection)
    (hallowed : allowed call) :
    Step database allowed running (collection.perform now call running).2

/-- **A run** of allowed calls leads from one state to another. -/
abbrev Database.Reaches (database : Database σ) (allowed : Call → Prop) :
    Running σ → Running σ → Prop :=
  Relation.ReflTransGen (database.Step allowed)

variable {database : Database σ} {view : σ → MemoryStore} {faults loose : Prop}
  {allowed : Call → Prop} {running after : Running σ}

theorem collection_ok {name : String} {collection : Collection σ}
    (h : database.collection name = .ok collection) :
    collection.database = database ∧ collection.name = name ∧
      database.registry.tree? name = some collection.tree := by
  obtain ⟨tree, htree, h⟩ := bind_ok_iff.mp h
  cases h
  have htree := Registry.tree_ok_iff.mp htree
  exact ⟨rfl, Registry.tree?_collection htree, htree⟩

variable (hbackend : database.backend.ActsLike view faults)
  (hregistry : database.registry.Compiled) (hsource : database.source.Exact)
  (hloose : faults → loose) (hremoves : ∀ call, allowed call → call.Removes → loose)
include hbackend hregistry hsource hloose hremoves

/-- One call on a sound store. -/
theorem step_settled (hstep : database.Step allowed running after)
    (hsound : (view running.store).Sound database.registry ((view running.store).Knows loose)) :
    (view after.store).Sound database.registry ((view after.store).Knows loose) ∧
      ∀ collection,
        (view running.store).count collection ≤ (view after.store).count collection := by
  obtain ⟨hcollection, hallowed⟩ := hstep
  next name collection now call =>
    have hsettles := perform_settles hbackend (collection_ok hcollection).1 hregistry.proper hsource
      hloose now call (hremoves call hallowed) hsound
    have hsettled := (hsettles.mono (fun _ _ h => h) fun _ _ h => h.1).state
    exact ⟨hsettled.sound, hsettled.advances.counts⟩

/-- **Along every run stores stay sound.** -/
theorem Reaches.sound (hreaches : database.Reaches allowed running after)
    (hsound : (view running.store).Sound database.registry ((view running.store).Knows loose)) :
    (view after.store).Sound database.registry ((view after.store).Knows loose) := by
  induction hreaches with
  | refl => exact hsound
  | tail _ hstep ih => exact (step_settled hbackend hregistry hsource hloose hremoves hstep ih).1

/-- **Along every run counters never fall.** -/
theorem Reaches.counts (hreaches : database.Reaches allowed running after)
    (hsound : (view running.store).Sound database.registry ((view running.store).Knows loose))
    (collection : String) :
    (view running.store).count collection ≤ (view after.store).count collection := by
  induction hreaches with
  | refl => exact Nat.le_refl _
  | tail hbefore hstep ih =>
    have hmiddle := Reaches.sound hbackend hregistry hsource hloose hremoves hbefore hsound
    have hcounts := (step_settled hbackend hregistry hsource hloose hremoves hstep hmiddle).2
    exact Nat.le_trans ih (hcounts collection)

omit hloose hremoves in
/-- Whatever is called on a store that is empty at first. -/
theorem Reaches.sound_of_empty (hreaches : database.Reaches (fun _ => True) running after)
    (hempty : ∀ name, (view running.store).documents name = []) :
    (view after.store).Sound database.registry ((view after.store).Knows True) :=
  Reaches.sound hbackend hregistry hsource (fun _ => trivial) (fun _ _ _ => trivial) hreaches
    (MemoryStore.sound_empty hempty)

end Runs

/-! ### Boxes of items -/

/-- A schema by which boxes embed two items and refer to one. -/
def boxDefinitions : List Definition :=
  [⟨"items", {}, [("x", .string "Number"), ("y", .string "Number")]⟩,
    ⟨"boxes", {}, [("a", .object [("schema", .string "items")]),
      ("b", .object [("schema", .string "items")]), ("r", .object [("$ref", .string "items")])]⟩]

/-- The compiled schema of items. -/
def itemTree : Tree where
  collection := "items"
  id := .standard
  fields := [("x", .scalar .number {}), ("y", .scalar .number {})]
  settings := {}

/-- The compiled schema of boxes. -/
def boxTree : Tree where
  collection := "boxes"
  id := .standard
  fields := [("a", .document "items" false), ("b", .document "items" false),
    ("r", .reference "items" .incr false)]
  settings := {}

theorem boxes_compiled : Registry.Compiled { shardMax := 1000, trees := [itemTree, boxTree] } := by
  refine ⟨1000, boxDefinitions, rfl, fun definition hin => ?_⟩
  simp only [boxDefinitions, List.mem_cons, List.not_mem_nil, or_false] at hin
  rcases hin with rfl | rfl
  · simp [Value.keysOnce_object_iff, Value.KeysOnce.string, Object.keys]
  · simp [Value.keysOnce_object_iff, Value.KeysOnce.string, Object.keys]

/-- A database of boxes and items. -/
def boxDatabase {σ : Type} (backend : Backend σ) : Database σ where
  registry := { shardMax := 1000, trees := [itemTree, boxTree] }
  backend := backend
  source := IdSource.ofBytes .empty

/-- A store in memory without boxes and items. -/
def noBoxes : Running MemoryStore where
  store := { shardMax := 1000 }

end DocumentDb
