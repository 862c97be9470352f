import DocumentDb.Proofs.Outcome
import DocumentDb.Proofs.Store.Contents

/-!
# Stores that act like stores in memory

Whatever the states of a store are, it acts like a store in memory if each of its states is the view
of one: reads give what the view holds, and writes change the view as they change a store in memory.
Storing documents or a counter may be allowed to fail; then it has no effect.
-/

namespace DocumentDb

/-- **A store acts like a store in memory**, of which `view` is the state. If `faults` holds,
storing documents and counters may fail without effect. -/
structure Backend.ActsLike {σ : Type} (backend : Backend σ) (view : σ → MemoryStore)
    (faults : Prop) : Prop where
  state : ∀ store collection, backend.state store collection = (view store).state collection
  fetch : ∀ store collection id,
    backend.fetch store collection id = .ok (findDocument ((view store).documents collection) id)
  all : ∀ store collection, backend.all store collection = .ok ((view store).documents collection)
  persist : ∀ store collection documents, Ensures (backend.persist collection documents) store
    (fun _ after => view after = (view store).persist collection documents)
    (fun e after => faults ∧ ¬ e.Reuse ∧ view after = view store)
  remove : ∀ store collection ids, Ensures (backend.remove collection ids) store
    (fun _ after => view after = (view store).remove collection ids)
    (fun _ _ => False)
  record : ∀ store collection count, Ensures (backend.record collection count) store
    (fun _ after => view after = (view store).record collection count)
    (fun e after => faults ∧ ¬ e.Reuse ∧ view after = view store)

/-- Stores in memory never fail to write. -/
theorem MemoryStore.backend_actsLike : MemoryStore.backend.ActsLike id False where
  state _ _ := rfl
  fetch _ _ _ := rfl
  all _ _ := rfl
  persist _ _ _ := rfl
  remove _ _ _ := rfl
  record _ _ _ := rfl

/-! ### Stores that falter -/

/-- A store in memory that falters: for each of the next writes it is settled whether it fails. -/
structure FalteringStore where
  memory : MemoryStore
  faults : List Bool

namespace FalteringStore

/-- Write to the memory, or fail without effect. -/
def write (change : MemoryStore → MemoryStore) : Write FalteringStore Unit := fun store =>
  match store.faults with
  | true :: later => (.error .file, { store with faults := later })
  | faults => (.ok (), { memory := change store.memory, faults := faults.tail })

/-- Stores that falter as stores. -/
def backend : Backend FalteringStore where
  state store := store.memory.state
  fetch store := MemoryStore.backend.fetch store.memory
  all store := MemoryStore.backend.all store.memory
  persist collection documents := write (.persist collection documents)
  remove collection ids := fun store =>
    let (result, memory) := MemoryStore.backend.remove collection ids store.memory
    (result, { store with memory })
  record collection count := write (.record collection count)

theorem ensures_write {store : FalteringStore} {change : MemoryStore → MemoryStore} :
    Ensures (write change) store (fun _ after => after.memory = change store.memory)
      (fun e after => True ∧ ¬ e.Reuse ∧ after.memory = store.memory) := by
  unfold Ensures write
  cases store.faults with
  | nil => exact rfl
  | cons fails later =>
    cases fails with
    | false => exact rfl
    | true => exact ⟨trivial, by rintro ⟨⟩, rfl⟩

/-- Stores that falter act like stores in memory with faults. -/
theorem backend_actsLike : backend.ActsLike memory True where
  state _ _ := rfl
  fetch _ _ _ := rfl
  all _ _ := rfl
  persist _ _ _ := ensures_write
  remove _ _ _ := rfl
  record _ _ _ := ensures_write

end FalteringStore

end DocumentDb
