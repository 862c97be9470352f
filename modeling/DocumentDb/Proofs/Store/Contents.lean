import DocumentDb.Proofs.Json.Objects
import DocumentDb.Store.Memory

/-!
# Contents of stores in memory

What a store in memory holds is, for each collection, a list of documents and a counter. A document
is *identified* if it has a valid id. Among identified documents, storing one more replaces the one
with the same id or adds it behind the others, so each id stays stored once, the last document
stored under an id is the one that is found, and other collections are left alone.
-/

namespace DocumentDb

theorem DocId.identical_toValue (a b : DocId) :
    Value.identical a.toValue b.toValue = decide (a = b) := by
  unfold Value.identical
  rw [Bool.eq_iff_iff]
  cases a <;> cases b <;>
    simp [DocId.toValue, Value.ofNat, Value.agrees, Number.identical, Int.natCast_inj]

/-! ### Lists of documents -/

/-- Every document has a valid id. -/
def Identified (documents : List Document) : Prop :=
  ∀ document ∈ documents, ∃ id, document.id? = some id

theorem Object.hasIdValue_iff {document : Document} {own id : DocId} (h : document.id? = some own) :
    document.hasIdValue id.toValue = decide (own = id) := by
  unfold Object.hasIdValue
  rw [Object.value?_id h]
  exact DocId.identical_toValue own id

section Put
variable {stored : List Document} {document : Document} {id : DocId}

theorem putDocument_eq_go (h : document.id? = some id) :
    putDocument stored document = putDocument.go document id.toValue stored := by
  unfold putDocument
  rw [Object.value?_id h]

theorem mem_of_mem_putDocument {other : Document}
    (h : other ∈ putDocument stored document) : other = document ∨ other ∈ stored := by
  have hgo : ∀ id, other ∈ putDocument.go document id stored →
      other = document ∨ other ∈ stored := by
    intro id hin
    clear h
    induction stored with
    | nil => exact Or.inl (List.mem_singleton.mp hin)
    | cons first rest ih =>
      rw [putDocument.go] at hin
      split_ifs at hin
      · exact (List.mem_cons.mp hin).imp_right (List.mem_cons_of_mem _)
      · rcases List.mem_cons.mp hin with rfl | hin
        · exact Or.inr List.mem_cons_self
        · exact (ih hin).imp_right (List.mem_cons_of_mem _)
  unfold putDocument at h
  split at h
  · exact (List.mem_append.mp h).symm.imp_left List.mem_singleton.mp
  · exact hgo _ h

theorem ids_putDocument (hstored : Identified stored) (h : document.id? = some id) :
    (putDocument stored document).map Object.id? =
      if some id ∈ stored.map Object.id? then stored.map Object.id?
      else stored.map Object.id? ++ [some id] := by
  rw [putDocument_eq_go h]
  induction stored with
  | nil => simp [putDocument.go, h]
  | cons first rest ih =>
    obtain ⟨own, hown⟩ := hstored first List.mem_cons_self
    have hrest := ih fun other hother => hstored other (List.mem_cons_of_mem _ hother)
    simp only [putDocument.go, Object.hasIdValue_iff hown, decide_eq_true_eq]
    by_cases heq : own = id
    · subst heq; simp [h, hown]
    · have hne : ¬ id = own := fun hid => heq hid.symm
      by_cases hin : some id ∈ rest.map Object.id?
      · simp [heq, hrest, hin]
      · simp [heq, hrest, hin, hown, hne]

theorem findDocument_putDocument (hstored : Identified stored) (h : document.id? = some id)
    (other : DocId) :
    findDocument (putDocument stored document) other =
      if id = other then some document else findDocument stored other := by
  rw [putDocument_eq_go h]
  unfold findDocument
  induction stored with
  | nil =>
    by_cases heq : id = other
    · simp [putDocument.go, h, heq]
    · simp [putDocument.go, h, heq]
  | cons first rest ih =>
    obtain ⟨own, hown⟩ := hstored first List.mem_cons_self
    have hrest := ih fun other hother => hstored other (List.mem_cons_of_mem _ hother)
    simp only [putDocument.go, Object.hasIdValue_iff hown, decide_eq_true_eq]
    by_cases heq : own = id
    · subst heq
      by_cases hother : own = other
      · simp [h, hother]
      · simp [h, hown, hother]
    · by_cases hother : own = other
      · subst hother
        simp [heq, hown, Ne.symm heq]
      · have hne : (own == other) = false := by simp [hother]
        simp [heq, hown, hne, hrest]

theorem Identified.putDocument (hstored : Identified stored) (h : document.id? = some id) :
    Identified (putDocument stored document) := by
  intro other hother
  rcases mem_of_mem_putDocument hother with rfl | hin
  · exact ⟨id, h⟩
  · exact hstored other hin

end Put

section Upsert
variable {stored documents : List Document}

theorem Identified.upsert (hstored : Identified stored) (hdocuments : Identified documents) :
    Identified (upsert stored documents) := by
  unfold DocumentDb.upsert
  induction documents generalizing stored with
  | nil => exact hstored
  | cons document rest ih =>
    obtain ⟨id, hid⟩ := hdocuments document List.mem_cons_self
    exact ih (hstored.putDocument hid) fun other h => hdocuments other (List.mem_cons_of_mem _ h)

theorem mem_of_mem_upsert {other : Document}
    (h : other ∈ upsert stored documents) : other ∈ documents ∨ other ∈ stored := by
  unfold upsert at h
  induction documents generalizing stored with
  | nil => exact Or.inr h
  | cons document rest ih =>
    rcases ih h with hrest | hput
    · exact Or.inl (List.mem_cons_of_mem _ hrest)
    · rcases mem_of_mem_putDocument hput with rfl | hin
      · exact Or.inl List.mem_cons_self
      · exact Or.inr hin

/-- Each id stays stored once. -/
theorem nodup_upsert (hstored : Identified stored) (hdocuments : Identified documents)
    (hnodup : (stored.map Object.id?).Nodup) :
    ((upsert stored documents).map Object.id?).Nodup := by
  unfold upsert
  induction documents generalizing stored with
  | nil => exact hnodup
  | cons document rest ih =>
    obtain ⟨id, hid⟩ := hdocuments document List.mem_cons_self
    have hrest : Identified rest := fun other h => hdocuments other (List.mem_cons_of_mem _ h)
    refine ih (hstored.putDocument hid) hrest ?_
    rw [ids_putDocument hstored hid]
    split_ifs with hin
    · exact hnodup
    · rw [← List.concat_eq_append]
      exact hnodup.concat hin

/-- The last document stored under an id is the one that is found. -/
theorem findDocument_upsert (hstored : Identified stored) (hdocuments : Identified documents)
    (id : DocId) :
    findDocument (upsert stored documents) id =
      (findDocument documents.reverse id).or (findDocument stored id) := by
  unfold upsert
  induction documents generalizing stored with
  | nil => simp [findDocument]
  | cons document rest ih =>
    obtain ⟨own, hown⟩ := hdocuments document List.mem_cons_self
    have hrest := ih (hstored.putDocument hown) fun other h =>
      hdocuments other (List.mem_cons_of_mem _ h)
    rw [List.foldl_cons, hrest, findDocument_putDocument hstored hown]
    unfold findDocument
    rw [List.reverse_cons, List.find?_append]
    by_cases heq : own = id
    · simp [hown, heq]
    · simp [hown, heq]

end Upsert

theorem findDocument_eq_some {stored : List Document} {id : DocId} {document : Document}
    (h : findDocument stored id = some document) :
    document ∈ stored ∧ document.id? = some id := by
  have hid := List.find?_some h
  exact ⟨List.mem_of_find?_eq_some h, by simpa using hid⟩

theorem exists_findDocument {stored : List Document} {document : Document} {id : DocId}
    (hin : document ∈ stored) (hid : document.id? = some id) :
    ∃ found, findDocument stored id = some found := by
  unfold findDocument
  cases h : stored.find? (·.id? == some id) with
  | some found => exact ⟨found, rfl⟩
  | none =>
    have := List.find?_eq_none.mp h document hin
    simp [hid] at this

/-- Where each id is stored once, a document is found by its id. -/
theorem findDocument_of_mem {stored : List Document} (honce : (stored.map Object.id?).Nodup)
    {document : Document} (hin : document ∈ stored) {id : DocId} (hid : document.id? = some id) :
    findDocument stored id = some document := by
  obtain ⟨found, hfound⟩ := exists_findDocument hin hid
  obtain ⟨hmem, hown⟩ := findDocument_eq_some hfound
  rw [hfound, List.inj_on_of_nodup_map honce hmem hin (hown.trans hid.symm)]

theorem idsOf_identified {documents : List Document} (h : Identified documents) :
    ∃ ids, idsOf documents = .ok ids ∧
      ∀ id, id ∈ ids ↔ ∃ document ∈ documents, document.id? = some id := by
  induction documents with
  | nil => exact ⟨[], rfl, by simp⟩
  | cons document rest ih =>
    obtain ⟨own, hown⟩ := h document List.mem_cons_self
    obtain ⟨ids, hids, hmem⟩ := ih fun other hother => h other (List.mem_cons_of_mem _ hother)
    refine ⟨if ids.contains own then ids else own :: ids, ?_, ?_⟩
    · simp only [idsOf, hown, hids]
      rfl
    · intro id
      simp only [List.contains_iff_mem, List.exists_mem_cons_iff, hown, Option.some.injEq, ← hmem]
      split_ifs with hin
      · constructor
        · exact Or.inr
        · rintro (rfl | hid)
          · exact hin
          · exact hid
      · rw [List.mem_cons, eq_comm]

theorem mem_withoutIds {stored : List Document} {ids : List DocId} {document : Document} :
    document ∈ withoutIds stored ids ↔ document ∈ stored ∧ hasIdAmong ids document = false := by
  simp [withoutIds]

/-! ### Holdings -/

namespace MemoryStore

/-- The documents of a collection. -/
def documents (store : MemoryStore) (collection : String) : List Document :=
  (store.holding collection).documents

/-- The counter of a collection. -/
def count (store : MemoryStore) (collection : String) : Nat := (store.holding collection).count

/-- A document with an id is stored. -/
def Has (store : MemoryStore) (collection : String) (id : DocId) : Prop :=
  ∃ document ∈ store.documents collection, document.id? = some id

variable (store : MemoryStore) (collection other : String)

theorem holding_collection : (store.holding collection).collection = collection := by
  unfold holding
  cases h : store.holdings.find? (·.collection == collection) with
  | none => rfl
  | some holding => simpa using List.find?_some h

theorem find?_putHolding (new : Holding) (holdings : List Holding) :
    (putHolding new holdings).find? (·.collection == other) =
      if new.collection = other then some new else holdings.find? (·.collection == other) := by
  induction holdings with
  | nil => by_cases h : new.collection = other <;> simp [putHolding, h]
  | cons first rest ih =>
    by_cases hfirst : first.collection = new.collection
    · by_cases h : new.collection = other <;> simp [putHolding, hfirst, h]
    · by_cases h : new.collection = other
      · have hne : first.collection ≠ other := h ▸ hfirst
        simp [putHolding, ih, h, hne]
      · simp [putHolding, hfirst, List.find?_cons, ih, h]

theorem holding_put (new : Holding) :
    (store.put new).holding other =
      if new.collection = other then new else store.holding other := by
  unfold holding put
  rw [find?_putHolding]
  split_ifs <;> rfl

theorem documents_persist (new : List Document) :
    (persist collection new store).documents other =
      if collection = other then upsert (store.documents collection) new
      else store.documents other := by
  unfold documents persist
  rw [holding_put]
  simp only [holding_collection]
  split_ifs <;> rfl

theorem count_persist (new : List Document) :
    (persist collection new store).count other = store.count other := by
  unfold count persist
  rw [holding_put]
  simp only [holding_collection]
  split_ifs with h
  · rw [h]
  · rfl

theorem documents_record (number : Nat) :
    (record collection number store).documents other = store.documents other := by
  unfold documents record
  rw [holding_put]
  simp only [holding_collection]
  split_ifs with h
  · rw [h]
  · rfl

theorem count_record (number : Nat) :
    (record collection number store).count other =
      if collection = other then number else store.count other := by
  unfold count record
  rw [holding_put]
  simp only [holding_collection]
  split_ifs <;> rfl

theorem holding_remove (ids : List DocId) :
    (remove collection ids store).holding other =
      if collection = other then
        { store.holding other with documents := withoutIds (store.documents other) ids }
      else store.holding other := by
  unfold holding remove documents holding
  simp only [List.find?_map, Function.comp_def]
  have hsame : (fun holding : Holding => (if (holding.collection == collection) = true then
      { holding with documents := withoutIds holding.documents ids } else holding).collection
        == other) = (·.collection == other) := by
    funext holding
    split_ifs <;> rfl
  rw [hsame]
  cases hfound : store.holdings.find? (·.collection == other) with
  | none => by_cases h : collection = other <;> simp [h, withoutIds]
  | some found =>
    have hcollection : found.collection = other := by simpa using List.find?_some hfound
    by_cases h : collection = other
    · simp [h, hcollection]
    · simp [h, hcollection, Ne.symm h]

theorem documents_remove (ids : List DocId) :
    (remove collection ids store).documents other =
      if collection = other then withoutIds (store.documents other) ids
      else store.documents other := by
  unfold documents
  rw [holding_remove]
  split_ifs <;> rfl

theorem count_remove (ids : List DocId) :
    (remove collection ids store).count other = store.count other := by
  unfold count
  rw [holding_remove]
  split_ifs <;> rfl

variable {store collection other}

/-- What is found under an id is stored under it. -/
theorem has_iff_find {id : DocId} :
    store.Has collection id ↔
      ∃ document, findDocument (store.documents collection) id = some document := by
  constructor
  · rintro ⟨document, hin, hid⟩
    exact exists_findDocument hin hid
  · rintro ⟨document, hfound⟩
    exact ⟨document, (findDocument_eq_some hfound).1, (findDocument_eq_some hfound).2⟩

/-- Storing documents keeps what was stored before and adds their ids. -/
theorem has_persist {new : List Document} (hstored : Identified (store.documents collection))
    (hnew : Identified new) {id : DocId} :
    (persist collection new store).Has other id ↔
      store.Has other id ∨ (collection = other ∧ ∃ document ∈ new, document.id? = some id) := by
  rw [has_iff_find, has_iff_find, documents_persist]
  split_ifs with h
  · subst h
    rw [findDocument_upsert hstored hnew]
    have hreverse : (∃ document ∈ new, document.id? = some id) ↔
        ∃ document, findDocument new.reverse id = some document := by
      constructor
      · rintro ⟨document, hin, hid⟩
        exact exists_findDocument (List.mem_reverse.mpr hin) hid
      · rintro ⟨document, hfound⟩
        have := findDocument_eq_some hfound
        exact ⟨document, List.mem_reverse.mp this.1, this.2⟩
    rw [hreverse]
    cases findDocument new.reverse id <;> simp
  · simp [h]

theorem state_identified (h : Identified (store.documents collection)) :
    ∃ ids, store.state collection =
        .ok { count := store.count collection, ids, shardMax := store.shardMax } ∧
      ∀ id, id ∈ ids ↔ store.Has collection id := by
  obtain ⟨ids, hids, hmem⟩ := idsOf_identified h
  refine ⟨ids, ?_, hmem⟩
  unfold documents at hids
  simp only [state, hids]
  rfl

end MemoryStore

end DocumentDb
