import DocumentDb.Proofs.Store.Contents
import DocumentDb.Proofs.Store.Shards

/-!
# Calls to stores

A store answers one call after the other. A store in memory takes any document; with a limit it
refuses to hold one that is too large for a shard, and a call that it refuses has no effect. As long
as every document fits, the limit makes no difference.
-/

namespace DocumentDb

/-! ### Calls and answers -/

/-- A call to a store. -/
inductive StoreCall where
  | state (collection : String)
  | fetch (collection : String) (id : DocId)
  | all (collection : String)
  | persist (collection : String) (documents : List Document)
  | remove (collection : String) (ids : List DocId)
  | record (collection : String) (count : Nat)

/-- What a store answers to a call. -/
inductive StoreAnswer where
  | state (result : Except Error StoreState)
  | found (result : Except Error (Option Document))
  | documents (result : Except Error (List Document))
  | persisted (result : Except Error Unit)
  | removed (result : Except Error Nat)
  | recorded (result : Except Error Unit)

namespace StoreCall

/-- The collection that is called upon. -/
def collection : StoreCall → String
  | state collection | fetch collection _ | all collection | persist collection _
  | remove collection _ | record collection _ => collection

/-- The documents that a collection is to hold after a call, from those it holds. -/
def leaves (stored : List Document) : StoreCall → List Document
  | persist _ documents => upsert stored documents
  | remove _ ids => withoutIds stored ids
  | state _ | fetch _ _ | all _ | record _ _ => stored

/-- The documents that come with a call. -/
def documents : StoreCall → List Document
  | persist _ documents => documents
  | state _ | fetch _ _ | all _ | remove _ _ | record _ _ => []

end StoreCall

namespace Backend
variable {σ : Type}

/-- The answer of a store to a call, and the store after it. -/
def answer (backend : Backend σ) (store : σ) : StoreCall → StoreAnswer × σ
  | .state collection => (.state (backend.state store collection), store)
  | .fetch collection id => (.found (backend.fetch store collection id), store)
  | .all collection => (.documents (backend.all store collection), store)
  | .persist collection documents =>
    let (result, after) := backend.persist collection documents store
    (.persisted result, after)
  | .remove collection ids =>
    let (result, after) := backend.remove collection ids store
    (.removed result, after)
  | .record collection count =>
    let (result, after) := backend.record collection count store
    (.recorded result, after)

/-- The answers of a store to one call after the other. -/
def answers (backend : Backend σ) (store : σ) : List StoreCall → List StoreAnswer
  | [] => []
  | call :: rest =>
    (backend.answer store call).1 :: backend.answers (backend.answer store call).2 rest

/-- A store after one call and the other. -/
def after (backend : Backend σ) (store : σ) (calls : List StoreCall) : σ :=
  calls.foldl (fun store call => (backend.answer store call).2) store

theorem answers_append (backend : Backend σ) (store : σ) (calls more : List StoreCall) :
    backend.answers store (calls ++ more) =
      backend.answers store calls ++ backend.answers (backend.after store calls) more := by
  induction calls generalizing store with
  | nil => rfl
  | cons call rest ih => exact congrArg _ (ih _)

end Backend

/-! ### Lists of stored documents -/

/-- What a collection is to hold after a call, it held or it comes with the call. -/
theorem StoreCall.mem_leaves {call : StoreCall} {stored : List Document} {document : Document}
    (h : document ∈ call.leaves stored) : document ∈ call.documents ∨ document ∈ stored := by
  cases call with
  | persist => exact mem_of_mem_upsert h
  | remove => exact .inr (List.mem_of_mem_filter h)
  | state | fetch | all | record => exact .inr h

theorem mem_putDocument_self (stored : List Document) (document : Document) :
    document ∈ putDocument stored document := by
  have hgo : ∀ id, document ∈ putDocument.go document id stored := by
    intro id
    induction stored with
    | nil => exact List.mem_cons_self
    | cons first rest ih =>
      rw [putDocument.go]
      split_ifs
      · exact List.mem_cons_self
      · exact List.mem_cons_of_mem _ ih
  unfold putDocument
  split
  · exact List.mem_append_right _ List.mem_cons_self
  · exact hgo _

theorem length_putDocument_le (stored : List Document) (document : Document) :
    (putDocument stored document).length ≤ stored.length + 1 := by
  have hgo : ∀ id, (putDocument.go document id stored).length ≤ stored.length + 1 := by
    intro id
    induction stored with
    | nil => exact Nat.le_refl _
    | cons first rest ih =>
      rw [putDocument.go]
      split_ifs
      · exact Nat.le_succ _
      · exact Nat.succ_le_succ ih
  unfold putDocument
  split
  · exact Nat.le_of_eq (by simp)
  · exact hgo _

theorem length_upsert_le (stored documents : List Document) :
    (upsert stored documents).length ≤ stored.length + documents.length := by
  unfold upsert
  induction documents generalizing stored with
  | nil => exact Nat.le_refl _
  | cons document rest ih =>
    have hput := length_putDocument_le stored document
    have hrest := ih (putDocument stored document)
    rw [List.foldl_cons, List.length_cons]
    omega

/-! ### Stores in memory with a limit -/

namespace MemoryStore

/-- Store documents, unless the collection would hold one that is too large for a shard. -/
def persistLimited (collection : String) (new : List Document) : Write MemoryStore Unit :=
  fun store =>
    let documents := upsert (store.documents collection) new
    match Shard.pack store.shardMax (documents.map Object.text) with
    | .ok _ => (.ok (), store.persist collection new)
    | .error e => (.error e, store)

/-- Stores in memory that refuse documents that are too large for a shard. -/
def limited : Backend MemoryStore := { backend with persist := persistLimited }

theorem limited_persist (store : MemoryStore) (collection : String) (new : List Document) :
    limited.persist collection new store =
      match Shard.pack store.shardMax
        ((upsert (store.documents collection) new).map Object.text) with
      | .ok _ => (.ok (), store.persist collection new)
      | .error e => (.error e, store) := rfl

end MemoryStore

theorem StoreCall.length_leaves_le (call : StoreCall) (stored : List Document) :
    (call.leaves stored).length ≤ stored.length + call.documents.length := by
  cases call with
  | persist collection documents => exact length_upsert_le stored documents
  | remove collection ids => exact List.length_filter_le _ _
  | state collection => exact Nat.le_refl _
  | fetch collection id => exact Nat.le_refl _
  | all collection => exact Nat.le_refl _
  | record collection count => exact Nat.le_refl _

/-- What a collection holds after a call: what it held, or what the call is to leave. -/
theorem MemoryStore.documents_answer (memory : MemoryStore) (call : StoreCall) (other : String) :
    (limited.answer memory call).2.documents other = memory.documents other ∨
      other = call.collection ∧
        (limited.answer memory call).2.documents other = call.leaves (memory.documents other) := by
  cases call with
  | persist collection documents =>
    simp only [Backend.answer, limited_persist]
    cases Shard.pack memory.shardMax
      ((upsert (memory.documents collection) documents).map Object.text) with
    | error e => exact Or.inl rfl
    | ok shards =>
      have hafter := documents_persist memory collection other documents
      split_ifs at hafter with heq
      · subst heq
        exact Or.inr ⟨rfl, hafter⟩
      · exact Or.inl hafter
  | remove collection ids =>
    have hafter : (limited.answer memory (.remove collection ids)).2 =
        memory.remove collection ids := rfl
    rw [hafter, documents_remove]
    split_ifs with heq
    · exact Or.inr ⟨heq.symm, rfl⟩
    · exact Or.inl rfl
  | record collection count => exact Or.inl (documents_record memory collection other count)
  | state collection => exact Or.inl rfl
  | fetch collection id => exact Or.inl rfl
  | all collection => exact Or.inl rfl

namespace MemoryStore
variable {store : MemoryStore} {calls : List StoreCall}

/-- Every document fits into a shard. -/
def Fits (store : MemoryStore) : Prop :=
  ∀ collection, ∀ document ∈ store.documents collection,
    document.byteSize ≤ documentMax store.shardMax

/-- A call does not store a document that is too large. -/
theorem Fits.step (h : store.Fits) {call : StoreCall}
    (hcall : ∀ collection documents, call = .persist collection documents →
      ∀ document ∈ documents, document.byteSize ≤ documentMax store.shardMax) :
    limited.answer store call = backend.answer store call ∧
      (backend.answer store call).2.shardMax = store.shardMax ∧
      (backend.answer store call).2.Fits := by
  cases call with
  | state collection => exact ⟨rfl, rfl, h⟩
  | fetch collection id => exact ⟨rfl, rfl, h⟩
  | all collection => exact ⟨rfl, rfl, h⟩
  | persist collection documents =>
    have hafter : (store.persist collection documents).Fits := by
      intro other document hin
      rw [documents_persist] at hin
      split_ifs at hin
      · rcases mem_of_mem_upsert hin with hin | hin
        · exact hcall _ _ rfl document hin
        · exact h collection document hin
      · exact h other document hin
    have hfit : ∃ shards, Shard.pack store.shardMax
        ((upsert (store.documents collection) documents).map Object.text) = .ok shards := by
      refine Shard.exists_pack_iff.mpr fun text hin => ?_
      obtain ⟨document, hmem, rfl⟩ := List.mem_map.mp hin
      refine hafter collection document ?_
      rwa [documents_persist, if_pos rfl]
    obtain ⟨shards, hpack⟩ := hfit
    refine ⟨?_, rfl, hafter⟩
    simp only [Backend.answer, limited_persist, hpack]
    rfl
  | remove collection ids =>
    refine ⟨rfl, rfl, fun other document hin => ?_⟩
    have hin : document ∈ (store.remove collection ids).documents other := hin
    rw [documents_remove] at hin
    split_ifs at hin
    · exact h other document (mem_withoutIds.mp hin).1
    · exact h other document hin
  | record collection count =>
    refine ⟨rfl, rfl, fun other document hin => ?_⟩
    have hin : document ∈ (store.record collection count).documents other := hin
    rw [documents_record] at hin
    exact h other document hin

/-- The limit makes no difference to calls that store no large document. -/
theorem Fits.answers_eq (h : store.Fits)
    (hcalls : ∀ collection documents, .persist collection documents ∈ calls →
      ∀ document ∈ documents, document.byteSize ≤ documentMax store.shardMax) :
    limited.answers store calls = backend.answers store calls := by
  induction calls generalizing store with
  | nil => rfl
  | cons call rest ih =>
    obtain ⟨hanswer, hmax, hafter⟩ := h.step fun collection documents heq =>
      hcalls collection documents (heq ▸ List.mem_cons_self)
    unfold Backend.answers
    rw [hanswer, ih hafter fun collection documents hin => by
      rw [hmax]; exact hcalls collection documents (List.mem_cons_of_mem _ hin)]

end MemoryStore

end DocumentDb
