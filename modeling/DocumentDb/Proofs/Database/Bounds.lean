import DocumentDb.Proofs.Database.Operations
import DocumentDb.Proofs.Document.Confinement

/-!
# What a change leaves alone

Changing a document by a patch writes the document itself and those that the patch mentions. All
other documents are the same afterwards, and none comes up at another id.
-/

namespace DocumentDb

/-- What writes do not write under an id was last written under it never. -/
theorem lastWritten_eq_none {writes : List PendingWrite} {collection : String} {id : DocId}
    (h : ∀ write ∈ writes, write.collection = collection → write.document.id? ≠ some id) :
    lastWritten writes collection id = none := by
  unfold lastWritten findDocument
  rw [List.find?_eq_none]
  intro document hin
  rw [List.mem_reverse, mem_writtenTo] at hin
  simpa using h _ hin rfl

section Leaving
variable {σ : Type} {database : Database σ} {view : σ → MemoryStore} {faults : Prop}
  {running : Running σ} {collection : Collection σ}
  (hbackend : database.backend.ActsLike view faults) (hregistry : database.registry.Proper)
  (hsource : database.source.Exact) (hcollection : collection.database = database)
include hbackend hregistry hsource hcollection

/-- **A change leaves all documents beyond bounds alone** except for the changed one, if what the
patch mentions may be embedded within them. -/
theorem changeOne_leaves (hready : running.Ready database view True) {now : Instant}
    {existing : Document} {patch : Value} {id : DocId} (hid : existing.id? = some id)
    (hexisting : (view running.store).Changeable database.registry True collection.name existing)
    {bounds : Bounds}
    (hpatch : ∀ tree, database.registry.tree? collection.name = some tree →
      Mentioned database.registry bounds.Spares (bounds.Tolerates (view running.store))
        (.nested tree.fields) patch) :
    Ensures (collection.changeOne now existing patch) running
      (fun _ after => ∀ other own, ¬ bounds.Allows (view running.store) other own →
        (other ≠ collection.name ∨ own ≠ id) →
        findDocument ((view after.store).documents other) own =
          findDocument ((view running.store).documents other) own)
      (fun _ _ => True) := by
  subst hcollection
  have hcarries : Carries collection.database view True (fun _ _ => True) running
      (collection.changeOne now existing patch) _ :=
    buildAndCommit_carries hbackend hregistry hsource (fun _ => trivial) fun hground =>
      change_delivers hground hexisting fun _ _ _ => trivial
  have hground : (collection.database.ground view now True (fun _ _ => True)
      running.store).Sound := ground_sound hbackend hregistry hsource hready.sound
  have hcleared : running.work.cleared.Confined (collection.database.ground view now True
      (fun _ _ => True) running.store) bounds :=
    ⟨hready.cleared.follows, fun write hin => by cases hin⟩
  refine (hcarries hready).mono ?_ fun _ _ _ => trivial
  rintro document after ⟨_, _, _, built, hbuilt, _, hfound⟩ other own hbeyond helse
  obtain ⟨hconfined, hdocument⟩ :=
    (Build.change_confines hground hid hpatch _ hcleared).of_ok hbuilt
  have hunwritten : lastWritten (built.pending ++ [⟨collection.name, document⟩]) other own =
      none := by
    refine lastWritten_eq_none fun write hin hother hown => ?_
    rcases List.mem_append.mp hin with hin | hin
    · obtain ⟨written, hwritten, hallowed⟩ := hconfined.waiting write hin
      rw [hown] at hwritten
      cases hwritten
      exact hbeyond (hother ▸ hallowed)
    · cases List.mem_singleton.mp hin
      rw [hdocument] at hown
      cases hown
      exact helse.elim (fun h => h hother.symm) fun h => h rfl
  rw [hfound, hunwritten, Option.none_or]

end Leaving

end DocumentDb
