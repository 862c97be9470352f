import DocumentDb.Proofs.Document.Conformance
import DocumentDb.Proofs.Store.Contents

/-!
# Sound stores

A store is sound for a schema if its documents conform to it, each id is stored once, and no stored
number is above the counter of its collection. Storing conforming documents below the counter,
raising a counter and removing documents keep a store sound. Which documents are known, so that
references may name them, is left open here: while an operation commits, references come before
their targets.
-/

namespace DocumentDb

namespace MemoryStore

/-- **A store is sound** for a schema. -/
structure Sound (registry : Registry) (known : String → DocId → Prop) (store : MemoryStore) :
    Prop where
  conform : ∀ collection, ∀ document ∈ store.documents collection, ∃ tree,
    registry.tree? collection = some tree ∧ Conforms registry known tree document
  once : ∀ collection, ((store.documents collection).map Object.id?).Nodup
  counted : ∀ collection n, store.Has collection (.number n) → n ≤ store.count collection

variable {registry : Registry} {known known' : String → DocId → Prop} {store : MemoryStore}
  {collection : String}

theorem Sound.identified (h : store.Sound registry known) (collection : String) :
    Identified (store.documents collection) := by
  intro document hin
  obtain ⟨_, _, hconforms⟩ := h.conform collection document hin
  obtain ⟨id, hid, _⟩ := hconforms.id
  exact ⟨id, hid⟩

theorem Sound.mono (hknown : ∀ collection id, known collection id → known' collection id)
    (h : store.Sound registry known) : store.Sound registry known' where
  conform collection document hin := by
    obtain ⟨tree, htree, hconforms⟩ := h.conform collection document hin
    exact ⟨tree, htree, hconforms.mono hknown⟩
  once := h.once
  counted := h.counted

/-- Stored ids are admitted by the rule of their collection. -/
theorem Sound.admits (h : store.Sound registry known) {id : DocId}
    (hhas : store.Has collection id) :
    ∃ tree, registry.tree? collection = some tree ∧ tree.id.Admits id := by
  obtain ⟨document, hin, hid⟩ := hhas
  obtain ⟨tree, htree, hconforms⟩ := h.conform collection document hin
  obtain ⟨own, hown, hadmits⟩ := hconforms.id
  rw [hid] at hown
  cases hown
  exact ⟨tree, htree, hadmits⟩

/-- What is found in a sound store conforms. -/
theorem Sound.find (h : store.Sound registry known) {id : DocId} {document : Document}
    (hfound : findDocument (store.documents collection) id = some document) :
    document.id? = some id ∧
      ∃ tree, registry.tree? collection = some tree ∧ Conforms registry known tree document :=
  ⟨(findDocument_eq_some hfound).2, h.conform collection document (findDocument_eq_some hfound).1⟩

/-- A document that may be stored: it conforms, and its number is at most the counter. -/
structure Storable (registry : Registry) (known : String → DocId → Prop) (count : Nat)
    (collection : String) (document : Document) : Prop where
  conform : ∃ tree, registry.tree? collection = some tree ∧ Conforms registry known tree document
  counted : ∀ n, document.id? = some (.number n) → n ≤ count

theorem Storable.identified {count : Nat} {documents : List Document}
    (h : ∀ document ∈ documents, Storable registry known count collection document) :
    Identified documents := by
  intro document hin
  obtain ⟨_, _, hconforms⟩ := (h document hin).conform
  obtain ⟨id, hid, _⟩ := hconforms.id
  exact ⟨id, hid⟩

theorem Sound.persist (h : store.Sound registry known) {documents : List Document}
    (hnew : ∀ document ∈ documents,
      Storable registry known (store.count collection) collection document) :
    (store.persist collection documents).Sound registry known where
  conform other document hin := by
    rw [documents_persist] at hin
    split_ifs at hin with heq
    · subst heq
      rcases mem_of_mem_upsert hin with hin | hin
      · exact (hnew document hin).conform
      · exact h.conform collection document hin
    · exact h.conform other document hin
  once other := by
    rw [documents_persist]
    split_ifs
    · exact nodup_upsert (h.identified collection) (Storable.identified hnew) (h.once collection)
    · exact h.once other
  counted other n hhas := by
    rw [count_persist]
    rcases (has_persist (h.identified collection) (Storable.identified hnew)).mp hhas with
      hhas | ⟨rfl, document, hin, hid⟩
    · exact h.counted other n hhas
    · exact (hnew document hin).counted n hid

theorem has_record {number : Nat} {other : String} {id : DocId} :
    (store.record collection number).Has other id ↔ store.Has other id := by
  unfold Has
  rw [documents_record]

theorem Sound.record (h : store.Sound registry known) {number : Nat}
    (hnumber : store.count collection ≤ number) :
    (store.record collection number).Sound registry known where
  conform other document hin := by
    rw [documents_record] at hin
    exact h.conform other document hin
  once other := by
    rw [documents_record]
    exact h.once other
  counted other n hhas := by
    have hle := h.counted other n (has_record.mp hhas)
    rw [count_record]
    split_ifs with heq
    · rw [← heq] at hle; omega
    · exact hle

theorem has_of_has_remove {ids : List DocId} {other : String} {id : DocId}
    (h : (store.remove collection ids).Has other id) : store.Has other id := by
  obtain ⟨document, hin, hid⟩ := h
  rw [documents_remove] at hin
  split_ifs at hin
  · exact ⟨document, (mem_withoutIds.mp hin).1, hid⟩
  · exact ⟨document, hin, hid⟩

theorem Sound.remove (h : store.Sound registry known) {ids : List DocId} :
    (store.remove collection ids).Sound registry known where
  conform other document hin := by
    rw [documents_remove] at hin
    split_ifs at hin
    · exact h.conform other document (mem_withoutIds.mp hin).1
    · exact h.conform other document hin
  once other := by
    rw [documents_remove]
    split_ifs
    · exact (h.once other).sublist (List.filter_sublist.map _)
    · exact h.once other
  counted other n hhas := by
    rw [count_remove]
    exact h.counted other n (has_of_has_remove hhas)

/-- A store without documents is sound. -/
theorem sound_empty (hempty : ∀ collection, store.documents collection = []) :
    store.Sound registry known where
  conform collection document hin := by rw [hempty] at hin; cases hin
  once collection := by rw [hempty]; exact List.nodup_nil
  counted collection n hhas := by
    obtain ⟨document, hin, _⟩ := hhas
    rw [hempty] at hin
    cases hin

end MemoryStore

end DocumentDb
