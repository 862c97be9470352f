import DocumentDb.Proofs.Database.Runs
import DocumentDb.Proofs.Document.Embedding
import Mathlib

/-!
# Copies of embedded documents

An insertion or a change writes copies of the documents that it embeds into the documents around
them. Such a copy is the latest version of the document right when it is embedded. It still equals
the stored document after the operation exactly if the operation does not write another version
under the same id later on: where the same id comes up again, or where it is the id of the changed
document itself, the earlier copy is left behind.
-/

namespace DocumentDb

section Copies
variable {σ : Type}

/-- An operation on a single document: the insertion of an object or a change of a stored document.
It builds one part of input; input that is no object is refused. -/
inductive Collection.Single (collection : Collection σ) (now : Instant) (running : Running σ) :
    Operation σ Document → Part → Prop
  | insert {input : Object} :
    Single collection now running (collection.insert now (.object input))
      (.insert "" collection.name input none)
  | update {id : DocId} {existing : Document} {patch : Object}
    (hexisting : collection.findById id running.store = .ok existing) :
    Single collection now running (collection.updateById now id (.object patch))
      (.update "" collection.name existing patch)

/-- The work of an operation that begins to build. -/
def Running.beginning (running : Running σ) : Work := { drawn := running.work.drawn }

/-- What an operation writes, in its order: the documents that came up, and its own at last. -/
def Part.writes (part : Part) (context : Context) (work : Work) (collection : String)
    (document : Document) : List PendingWrite :=
  (part.left context work).pending ++ [⟨collection, document⟩]

/-- What an operation wrote is stored: of each id its last write. -/
structure Part.Stores (part : Part) (context : Context) (work : Work) (collection : String)
    (document : Document) (before after : MemoryStore) : Prop where
  ids : ∀ write ∈ (part.left context work).pending, ∃ id, write.document.id? = some id
  found : ∀ other id, findDocument (after.documents other) id =
    (lastWritten (part.writes context work collection document) other id).or
      (findDocument (before.documents other) id)

variable {database : Database σ} {view : σ → MemoryStore} {faults : Prop} {running : Running σ}
  {collection : Collection σ} {now : Instant} {operation : Operation σ Document} {part : Part}
  (hbackend : database.backend.ActsLike view faults) (hregistry : database.registry.Proper)
  (hsource : database.source.Exact) (hcollection : collection.database = database)
include hbackend hregistry hsource hcollection

/-- What an operation on a single document has stored when it succeeds. -/
theorem single_ensures (hsingle : collection.Single now running operation part)
    (hsound : (view running.store).Sound database.registry ((view running.store).Knows True)) :
    Ensures operation running
      (fun document after => part.Stores (database.context now running.store) running.beginning
        collection.name document (view running.store) (view after.store))
      (fun _ _ => True) := by
  subst hcollection
  have hbegins : ({ running with work := running.work.fresh } : Running σ).Ready
      collection.database view True := fresh_ready hsound
  cases hsingle with
  | @insert input =>
    have hinserts : Carries collection.database view True (fun _ _ => True)
        { running with work := running.work.fresh } (collection.insertOne now (.object input)) _ :=
      buildAndCommit_carries hbackend hregistry hsource (fun _ => trivial)
        fun hground => create_delivers hground fun _ _ _ => trivial
    refine ensures_bind.mpr (ensures_modify.mpr ((hinserts hbegins).mono ?_ fun _ _ _ => trivial))
    rintro document after ⟨_, _, _, built, hbuilt, hids, hfound⟩
    obtain rfl : (Part.insert "" collection.name input none).left
        (collection.database.context now running.store) running.beginning = built :=
      congrArg Prod.snd hbuilt
    exact ⟨hids, hfound⟩
  | @update id existing patch hexisting =>
    have hin := (findDocument_eq_some (findById_ok hbackend rfl hexisting)).1
    have hchanges : Carries collection.database view True (fun _ _ => True)
        { running with work := running.work.fresh }
        (collection.changeOne now existing (.object patch)) _ :=
      buildAndCommit_carries hbackend hregistry hsource (fun _ => trivial)
        fun hground => change_delivers hground (hsound.changeable hin) fun _ _ _ => trivial
    refine ensures_bind.mpr ?_
    unfold Ensures Operation.look
    rw [hexisting]
    refine ensures_bind.mpr (ensures_modify.mpr ((hchanges hbegins).mono ?_ fun _ _ _ => trivial))
    rintro document after ⟨_, _, _, built, hbuilt, hids, hfound⟩
    obtain rfl : (Part.update "" collection.name existing patch).left
        (collection.database.context now running.store) running.beginning = built :=
      congrArg Prod.snd hbuilt
    exact ⟨hids, hfound⟩

omit hregistry hsource hcollection in
/-- The latest version of a document has the id that it was found by. -/
theorem latest_id {behind : Work} {other : String} {id : DocId} {embedded : Document}
    (h : behind.IsLatest (database.context now running.store) other id embedded) :
    embedded.id? = some id ∧ (lastWritten behind.pending other id).or
      (findDocument ((view running.store).documents other) id) = some embedded := by
  rcases h with hwaits | ⟨hnone, hfetch⟩
  · rw [Work.pendingDocument?_eq] at hwaits
    exact ⟨(findDocument_eq_some hwaits).2, by rw [hwaits]; rfl⟩
  · have hstored : findDocument ((view running.store).documents other) id = some embedded := by
      have hread := hbackend.fetch running.store other id
      rw [show database.backend.fetch running.store other id = .ok (some embedded) from hfetch]
        at hread
      exact (Except.ok.inj hread).symm
    rw [Work.pendingDocument?_eq] at hnone
    exact ⟨(findDocument_eq_some hstored).2, by rw [hnone, hstored]; rfl⟩

end Copies

/-- **A copy of an embedded document** equals the stored document after the operation exactly if the
operation writes no other version under its id later on. -/
theorem embedded_stays_iff {σ : Type} {database : Database σ} {view : σ → MemoryStore}
    {faults : Prop} (hbackend : database.backend.ActsLike view faults)
    (hregistry : database.registry.Compiled) (hsource : database.source.Exact)
    {start running : Running σ} (hempty : ∀ name, (view start.store).documents name = [])
    (hreaches : database.Reaches (fun _ => True) start running) {name : String}
    {collection : Collection σ} (hcollection : database.collection name = .ok collection)
    {now : Instant} {operation : Operation σ Document} {part : Part}
    (hsingle : collection.Single now running operation part) {document : Document}
    {after : Running σ} (hdone : operation running = (.ok document, after)) {other : String}
    {embedded : Document} {behind : Work}
    (hembeds : part.Embeds (database.context now running.store) other embedded behind
      running.beginning) :
    ∃ id later, embedded.id? = some id ∧
      part.writes (database.context now running.store) running.beginning name document =
        behind.pending ++ later ∧
      (database.backend.fetch after.store other id = .ok (some embedded) ↔
        ∀ last, lastWritten later other id = some last → last = embedded) := by
  obtain ⟨hdatabase, hname, _⟩ := collection_ok hcollection
  have hsound := Reaches.sound_of_empty hbackend hregistry hsource hreaches hempty
  obtain ⟨hids, hfound⟩ := (single_ensures hbackend hregistry.proper hsource hdatabase hsingle
    hsound).of_ok hdone
  obtain ⟨rest, hrest⟩ := hembeds.pending
  rw [hname] at hfound
  have hlatest : ∃ id, behind.IsLatest (database.context now running.store) other id embedded := by
    rcases hembeds.latest with ⟨hin, hlatest⟩ | hlatest
    · obtain ⟨id, hid⟩ := hids _ (hrest ▸ List.mem_append_left _ hin)
      exact ⟨id, hlatest id hid⟩
    · exact hlatest
  obtain ⟨id, hlatest⟩ := hlatest
  obtain ⟨hid, hbefore⟩ := latest_id hbackend hlatest
  have hwrites : part.writes (database.context now running.store) running.beginning name document =
      behind.pending ++ (rest ++ [⟨name, document⟩]) := by
    rw [Part.writes, ← hrest, List.append_assoc]
  refine ⟨id, rest ++ [⟨name, document⟩], hid, hwrites, ?_⟩
  rw [hbackend.fetch, hfound, hwrites, lastWritten_append, Option.or_assoc, hbefore]
  cases lastWritten (rest ++ [⟨name, document⟩]) other id with
  | none => simp
  | some last => simp

/-! ### A copy that is left behind -/

/-- The state after an item was inserted. -/
def oneItem : Running MemoryStore :=
  ((Collection.mk (boxDatabase MemoryStore.backend) itemTree).perform ⟨0, 0⟩
    (.insert (.object [("x", .number (.int 0))])) noBoxes).2

theorem noBoxes_reaches_oneItem :
    (boxDatabase MemoryStore.backend).Reaches (fun _ => True) noBoxes oneItem := by
  have hcollection : (boxDatabase MemoryStore.backend).collection "items" =
      .ok ⟨boxDatabase MemoryStore.backend, itemTree⟩ := rfl
  exact .single (.call hcollection trivial)

/-- A box that names the item twice, with a change each time. -/
def twiceNamed : Object :=
  [("a", .object [("id", .number (.int 1)), ("x", .number (.int 1))]),
    ("b", .object [("id", .number (.int 1)), ("y", .number (.int 2))])]

/-- The insertion of the box. -/
def boxing : Except Error Document × Running MemoryStore :=
  (Collection.mk (boxDatabase MemoryStore.backend) boxTree).insert ⟨0, 0⟩ (.object twiceNamed)
    oneItem

/-- The item as the first name of it leaves it. -/
def firstCopy : Document := [("id", .number (.int 1)), ("x", .number (.int 1))]

/-- The item as the second name of it leaves it. -/
def secondCopy : Document :=
  [("id", .number (.int 1)), ("x", .number (.int 1)), ("y", .number (.int 2))]

/-- What the insertion of the box reads. -/
def boxingContext : Context := (boxDatabase MemoryStore.backend).context ⟨0, 0⟩ oneItem.store

/-- The work of the insertion when the box has its id. -/
def boxNamed : Work := (Build.newId "" "boxes" twiceNamed boxingContext oneItem.beginning).2

/-- The work of the insertion behind the first name of the item. -/
def firstNamed : Work :=
  (Build.embedDocument "a" "items" firstCopy (some ⟨"boxes", .number 1⟩) boxingContext boxNamed).2

theorem firstCopy_embedded : (Part.insert "" "boxes" twiceNamed none).Embeds boxingContext "items"
    firstCopy firstNamed oneItem.beginning := by
  have hid : Build.newId "" "boxes" twiceNamed boxingContext oneItem.beginning =
      (.ok (.number 1), boxNamed) := Prod.ext (by cbv) rfl
  have hembedded : Build.embedDocument "a" "items" firstCopy (some ⟨"boxes", .number 1⟩)
      boxingContext boxNamed = (.ok firstCopy, firstNamed) := Prod.ext (by cbv) rfl
  exact .inside (.inserted rfl hid)
    (.inside (.field rfl) (.inside .documentValue (.here hembedded)))

/-- The box as its insertion returns it. -/
def twiceBoxed : Document :=
  [("id", .number (.int 1)), ("a", .object firstCopy), ("b", .object secondCopy)]

theorem boxing_succeeds : boxing.1 = .ok twiceBoxed := by
  cbv

/-- What the theorem says of the first copy, and that the box holds it. -/
theorem firstCopy_stays_iff : boxing.1 = .ok twiceBoxed ∧
    ∃ id later, firstCopy.id? = some id ∧
      (Part.insert "" "boxes" twiceNamed none).writes boxingContext oneItem.beginning "boxes"
        twiceBoxed = firstNamed.pending ++ later ∧
      (MemoryStore.backend.fetch boxing.2.store "items" id = .ok (some firstCopy) ↔
        ∀ last, lastWritten later "items" id = some last → last = firstCopy) := by
  have hcollection : (boxDatabase MemoryStore.backend).collection "boxes" =
      .ok ⟨boxDatabase MemoryStore.backend, boxTree⟩ := rfl
  have hdone : boxing = (.ok twiceBoxed, boxing.2) := Prod.ext boxing_succeeds rfl
  exact ⟨boxing_succeeds, embedded_stays_iff MemoryStore.backend_actsLike boxes_compiled
    (IdSource.ofBytes_exact _) (fun _ => rfl) noBoxes_reaches_oneItem hcollection .insert hdone
    firstCopy_embedded⟩

/-- The box holds the item as it was before its second change, which is stored. -/
theorem firstCopy_left_behind :
    (boxDatabase MemoryStore.backend).Reaches (fun _ => True) noBoxes oneItem ∧
      boxing.1 = .ok [("id", .number (.int 1)), ("a", .object firstCopy),
        ("b", .object secondCopy)] ∧
      MemoryStore.backend.fetch boxing.2.store "items" (.number 1) = .ok (some secondCopy) ∧
      firstCopy ≠ secondCopy :=
  ⟨noBoxes_reaches_oneItem, boxing_succeeds, by cbv, by simp [firstCopy, secondCopy]⟩

end DocumentDb
