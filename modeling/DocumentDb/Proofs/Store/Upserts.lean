import DocumentDb.Proofs.Store.Contents
import Mathlib

/-!
# Upserts

A store puts a batch of documents one after the other: each in the place of the document with the
same id, or else behind the others. As a map from ids to documents it is updated by the last
document of each id (`findDocument_upsert`); as a list it keeps the places of the ids that it has,
and new ids follow in the order in which the batch has them first (`ids_upsert`).

* `upsert_in_order`: both at once. Documents are put by the values of their ids, and found and
  removed by the ids that these values stand for, which comes to the same.
-/

namespace DocumentDb

section Order
variable {stored batch : List Document}

/-- The ids that a batch adds to stored ones, in the order in which it has them first. -/
def newIds (stored batch : List (Option DocId)) : List (Option DocId) :=
  batch.eraseDups.filter fun id => !stored.contains id

theorem newIds_concat (stored batch : List (Option DocId)) (id : Option DocId) :
    newIds stored (batch ++ [id]) =
      if id ∈ stored ++ newIds stored batch then newIds stored batch
      else newIds stored batch ++ [id] := by
  have hdups : (batch ++ [id]).eraseDups =
      batch.eraseDups ++ if id ∈ batch then [] else [id] := by
    rw [List.eraseDups_append]
    by_cases hin : id ∈ batch
    · simp [List.removeAll, hin]
    · simp [List.removeAll, hin, List.eraseDups_cons]
  unfold newIds
  rw [hdups, List.filter_append]
  by_cases hstored : id ∈ stored
  · by_cases hin : id ∈ batch <;> simp [hstored, hin]
  · by_cases hin : id ∈ batch <;> simp [hstored, hin, List.mem_eraseDups]

/-- **The ids after an upsert**: those that were stored keep their places, and new ones follow. -/
theorem ids_upsert (hstored : Identified stored) (hbatch : Identified batch) :
    (upsert stored batch).map Object.id? =
      stored.map Object.id? ++ newIds (stored.map Object.id?) (batch.map Object.id?) := by
  induction batch using List.reverseRecOn with
  | nil => simp [upsert, newIds]
  | append_singleton batch document ih =>
    have hbefore : Identified batch := fun other hin => hbatch other (List.mem_append_left _ hin)
    obtain ⟨id, hid⟩ := hbatch document (List.mem_append_right _ List.mem_cons_self)
    have hput : upsert stored (batch ++ [document]) =
        putDocument (upsert stored batch) document := List.foldl_concat ..
    rw [hput, ids_putDocument (hstored.upsert hbefore) hid, ih hbefore, List.map_append,
      List.map_singleton, hid, newIds_concat]
    split_ifs
    · rfl
    · rw [List.append_assoc]

end Order

/-- **What a batch makes of stored documents.** -/
structure Upserted (stored batch after : List Document) : Prop where
  identified : Identified after
  /-- No two documents have the same id. -/
  once : (after.map Object.id?).Nodup
  /-- Under an id the last document of the batch that has it is found, or else the stored one. -/
  found : ∀ id, findDocument after id = (findDocument batch.reverse id).or (findDocument stored id)
  /-- What was stored keeps its place, or gives it to the last document of the batch that has its
  id. -/
  places : ∀ (place : Nat) (document : Document) (id : DocId), stored[place]? = some document →
    document.id? = some id → after[place]? = (findDocument batch.reverse id).or (some document)
  /-- Behind that are the new ids, in the order in which the batch has them first, and nothing
  else. -/
  newcomers : (after.drop stored.length).map Object.id? =
    newIds (stored.map Object.id?) (batch.map Object.id?)
  members : ∀ document ∈ after, document ∈ stored ∨ document ∈ batch

section Upserts
variable {stored batch : List Document}

/-- **The value of an id is compared as the id**: by the store that puts a document, by a look-up
and by a removal. -/
theorem hasIdValue_eq {document : Document} (h : ∃ own, document.id? = some own) (id : DocId) :
    document.hasIdValue id.toValue = (document.id? == some id) ∧
      document.hasIdValue id.toValue = hasIdAmong [id] document := by
  obtain ⟨own, hown⟩ := h
  rw [Object.hasIdValue_iff hown]
  by_cases hsame : own = id <;> simp [hasIdAmong, hown, hsame]

/-- The place of a stored document. -/
theorem getElem?_upsert (hstored : Identified stored) (hbatch : Identified batch)
    (honce : (stored.map Object.id?).Nodup) {place : Nat} {document : Document} {id : DocId}
    (hplace : stored[place]? = some document) (hid : document.id? = some id) :
    (upsert stored batch)[place]? = (findDocument batch.reverse id).or (some document) := by
  have hin : document ∈ stored := List.mem_of_getElem? hplace
  have hids : ((upsert stored batch).map Object.id?)[place]? = some (some id) := by
    have hlength : place < (stored.map Object.id?).length := by
      rw [List.length_map]
      exact (List.getElem?_eq_some_iff.mp hplace).1
    rw [ids_upsert hstored hbatch, List.getElem?_append_left hlength, List.getElem?_map, hplace,
      Option.map_some, hid]
  obtain ⟨now, hnow, hown⟩ := Option.map_eq_some_iff.mp ((List.getElem?_map ..).symm.trans hids)
  have hfound := findDocument_of_mem (nodup_upsert hstored hbatch honce)
    (List.mem_of_getElem? hnow) hown
  rw [hnow, ← hfound, findDocument_upsert hstored hbatch, findDocument_of_mem honce hin hid]

/-- **An upsert updates a map and keeps the order of a list.** -/
theorem upsert_in_order (hstored : Identified stored) (honce : (stored.map Object.id?).Nodup)
    (hbatch : Identified batch) :
    Upserted stored batch (upsert stored batch) ∧
      ∀ first ∈ stored ++ batch, ∀ second ∈ stored ++ batch, ∃ id value,
        second.id? = some id ∧ Object.value? second idKey = some value ∧
        first.hasIdValue value = (first.id? == some id) ∧
        first.hasIdValue value = hasIdAmong [id] first := by
  refine ⟨⟨hstored.upsert hbatch, nodup_upsert hstored hbatch honce,
    findDocument_upsert hstored hbatch, fun place document id hplace hid =>
      getElem?_upsert hstored hbatch honce hplace hid, ?_, fun document hin =>
      (mem_of_mem_upsert hin).symm⟩, fun first hfirst second hsecond => ?_⟩
  · rw [List.map_drop, ids_upsert hstored hbatch, ← List.length_map Object.id?, List.drop_left]
  · have hall : Identified (stored ++ batch) := fun document hin =>
      (List.mem_append.mp hin).elim (hstored document) (hbatch document)
    obtain ⟨id, hid⟩ := hall second hsecond
    exact ⟨id, id.toValue, hid, Object.value?_id hid, hasIdValue_eq (hall first hfirst) id⟩

end Upserts

/-! ### A small stock -/

/-- Two stored documents, one with a number and one with a text as its id. -/
def stockDocuments : List Document :=
  [[("id", .ofNat 1), ("v", .string "a")], [("id", .string "1"), ("v", .string "b")]]

/-- A batch with two documents of one new id. -/
def stockBatch : List Document :=
  [[("id", .ofNat 3), ("v", .string "c")], [("id", .string "1"), ("v", .string "B")],
    [("id", .ofNat 2)], [("id", .ofNat 3), ("v", .string "C")]]

/-- The number stays, the text is renewed, and two numbers follow, the later one first. -/
theorem stock_upserted :
    upsert stockDocuments stockBatch =
      [[("id", .ofNat 1), ("v", .string "a")], [("id", .string "1"), ("v", .string "B")],
        [("id", .ofNat 3), ("v", .string "C")], [("id", .ofNat 2)]] ∧
    (stockDocuments.map Object.id?).Nodup ∧
    Upserted stockDocuments stockBatch (upsert stockDocuments stockBatch) := by
  have hstored : Identified stockDocuments := by
    intro document hin
    simp only [stockDocuments, List.mem_cons, List.not_mem_nil, or_false] at hin
    rcases hin with rfl | rfl
    · exact ⟨.number 1, by cbv⟩
    · exact ⟨.text "1", by cbv⟩
  have hbatch : Identified stockBatch := by
    intro document hin
    simp only [stockBatch, List.mem_cons, List.not_mem_nil, or_false] at hin
    rcases hin with rfl | rfl | rfl | rfl
    · exact ⟨.number 3, by cbv⟩
    · exact ⟨.text "1", by cbv⟩
    · exact ⟨.number 2, by cbv⟩
    · exact ⟨.number 3, by cbv⟩
  have hids : stockDocuments.map Object.id? = [some (.number 1), some (.text "1")] := by cbv
  have honce : (stockDocuments.map Object.id?).Nodup := by
    rw [hids]
    decide
  exact ⟨by cbv, honce, (upsert_in_order hstored honce hbatch).1⟩

end DocumentDb
