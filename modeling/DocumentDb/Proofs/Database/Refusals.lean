import DocumentDb.Proofs.Database.Calls
import DocumentDb.Proofs.Store.Sizes

/-!
# Refused documents

Only the builder finds a document too large; a store in files fails for other reasons. So when an
operation on one document fails because it is too large, nothing was written (`refused_leaves`), and
when an operation on several documents does, those before the refused one are what was written
(`insertMany_refused`, `updateMany_refused`).
-/

namespace DocumentDb

theorem FileStore.Fails.not_tooLarge {overfull : Prop} {e : Error}
    (h : FileStore.Fails overfull e) : ¬ e.TooLarge := by
  rintro ⟨⟩
  cases h

/-! ### Parts of operations -/

section Steps
variable {σ α β : Type}

/-- A part of an operation leaves the store alone. -/
def LeavesStore (step : Operation σ α) : Prop := ∀ running : Running σ,
  Ensures step running (fun _ after => after.store = running.store)
    (fun _ after => after.store = running.store)

/-- A part of an operation never finds a document too large. -/
def FindsRoom (step : Operation σ α) : Prop := ∀ running : Running σ,
  Ensures step running (fun _ _ => True) (fun e _ => ¬ e.TooLarge)

/-- **A part of an operation refuses early**: if it finds a document too large, the store is what it
was before. -/
def RefusesEarly (step : Operation σ α) : Prop := ∀ running : Running σ,
  Ensures step running (fun _ _ => True)
    (fun e after => e.TooLarge → after.store = running.store)

theorem FindsRoom.bind {first : Operation σ α} {next : α → Operation σ β}
    (hfirst : FindsRoom first) (hnext : ∀ a, FindsRoom (next a)) : FindsRoom (first >>= next) :=
  fun running => (hfirst running).bind fun a after _ => hnext a after

theorem FindsRoom.refusesEarly {step : Operation σ α} (h : FindsRoom step) : RefusesEarly step :=
  fun running => (h running).mono (fun _ _ h => h) fun _ _ hfails hlarge => absurd hlarge hfails

theorem LeavesStore.refusesEarly {step : Operation σ α} (h : LeavesStore step) :
    RefusesEarly step := fun running =>
  (h running).mono (fun _ _ _ => trivial) fun _ _ hsame _ => hsame

/-- What leaves the store alone may come first. -/
theorem LeavesStore.bind_refusesEarly {first : Operation σ α} {next : α → Operation σ β}
    (hfirst : LeavesStore first) (hnext : ∀ a, RefusesEarly (next a)) :
    RefusesEarly (first >>= next) := by
  intro running
  refine ensures_bind.mpr ((hfirst running).mono (fun a middle hmiddle => ?_) fun _ _ h _ => h)
  refine (hnext a middle).mono (fun _ _ h => h) fun e after hafter hlarge => ?_
  rw [hafter hlarge, hmiddle]

theorem RefusesEarly.map {step : Operation σ α} (h : RefusesEarly step) (f : α → β) :
    RefusesEarly (f <$> step) := fun running => ensures_map.mpr (h running)

theorem leavesStore_look (read : σ → Except Error α) : LeavesStore (Operation.look read) := by
  intro running
  unfold Ensures Operation.look
  cases read running.store <;> rfl

theorem leavesStore_start : LeavesStore (Operation.start : Operation σ Unit) := fun _ => rfl

theorem leavesStore_build {database : Database σ} {now : Instant} {step : Build α} :
    LeavesStore (database.build now step) := by
  intro running
  refine ensures_build.mpr ?_
  exact ensures_any.mono (fun _ _ _ => rfl) fun _ _ _ => rfl

end Steps

section Files
variable {database : Database FileStore} (hbackend : database.backend = FileStore.backend)
include hbackend

theorem persist_findsRoom (collection : String) (documents : List Document) :
    FindsRoom (Operation.write (database.backend.persist collection documents)) := by
  rw [hbackend]
  intro running
  refine ensures_write.mpr ((FileStore.persist_fails _ _ _).mono (fun _ _ h => h) ?_)
  exact fun _ _ h => h.not_tooLarge

theorem remove_findsRoom (collection : String) (ids : List DocId) :
    FindsRoom (Operation.write (database.backend.remove collection ids)) := by
  rw [hbackend]
  intro running
  refine ensures_write.mpr ((FileStore.remove_fails _ _ _).mono (fun _ _ h => h) ?_)
  exact fun _ _ h => h.not_tooLarge

theorem recordAll_findsRoom (counters : List (String × Nat)) :
    FindsRoom (database.recordAll counters) := by
  induction counters with
  | nil => exact fun _ => trivial
  | cons entry rest ih =>
    have hwrite : FindsRoom (Operation.write (database.backend.record entry.1 entry.2)) := by
      rw [hbackend]
      intro running
      refine ensures_write.mpr ((FileStore.record_fails _ _ _).mono (fun _ _ h => h) ?_)
      exact fun _ _ h => h.not_tooLarge
    exact hwrite.bind fun _ running => ensures_bind.mpr (ensures_modify.mpr (ih _))

theorem persistGroups_findsRoom (groups : List (String × List Document)) :
    FindsRoom (database.persistGroups groups) := by
  induction groups with
  | nil => exact fun _ => trivial
  | cons group rest ih => exact (persist_findsRoom hbackend _ _).bind fun _ => ih

/-- **A commit never finds a document too large.** -/
theorem commit_findsRoom (collection : String) (document : Document) :
    FindsRoom (database.commit collection document) := by
  have hcounters : FindsRoom database.recordCounters := fun running =>
    recordAll_findsRoom hbackend running.work.movedCounters running
  refine hcounters.bind fun _ running => ensures_bind.mpr (ensures_get.mpr ?_)
  have hgroups := persistGroups_findsRoom hbackend (groups running.work.pending)
  exact (hgroups.bind fun _ => persist_findsRoom hbackend collection [document]) running

/-- **A document that is too large is refused before the commit.** -/
theorem buildAndCommit_refusesEarly {now : Instant} {collection : String} {step : Build Document} :
    RefusesEarly (database.buildAndCommit now collection step) := by
  have hcleared : LeavesStore
      (modify fun running : Running FileStore => { running with work := running.work.cleared }) :=
    fun _ => rfl
  refine hcleared.bind_refusesEarly fun _ => leavesStore_build.bind_refusesEarly fun document => ?_
  have hcommit := commit_findsRoom hbackend collection document
  have hdone : FindsRoom (database.commit collection document >>= fun _ => pure document) :=
    hcommit.bind fun _ _ => trivial
  exact hdone.refusesEarly

end Files

/-! ### Calls -/

/-- The call builds one document at most. -/
def Call.OfOne : Call → Prop
  | insertMany _ => False
  | updateMany _ _ => False
  | _ => True

section Calls
variable {collection : Collection FileStore}
  (hbackend : collection.database.backend = FileStore.backend) {now : Instant}
include hbackend

theorem changeList_refusesEarly {id : DocId} {path : String}
    {edit : Element → List Value → Build (List Value)} :
    RefusesEarly (collection.changeList now id path edit) := by
  refine (leavesStore_look _).bind_refusesEarly fun element => ?_
  refine (leavesStore_look _).bind_refusesEarly fun existing => ?_
  refine (leavesStore_look _).bind_refusesEarly fun current => ?_
  refine leavesStore_start.bind_refusesEarly fun _ => ?_
  exact leavesStore_build.bind_refusesEarly fun items => buildAndCommit_refusesEarly hbackend

/-- **A call on one document that is too large writes nothing.** -/
theorem refused_leaves {call : Call} (hone : call.OfOne) :
    RefusesEarly (collection.perform now call) := by
  cases call with
  | insert raw =>
    exact (leavesStore_start.bind_refusesEarly fun _ => buildAndCommit_refusesEarly hbackend).map _
  | insertMany raws => exact hone.elim
  | updateById id patch =>
    refine RefusesEarly.map ((leavesStore_look _).bind_refusesEarly fun existing => ?_) _
    exact leavesStore_start.bind_refusesEarly fun _ => buildAndCommit_refusesEarly hbackend
  | updateMany query patch => exact hone.elim
  | deleteById id =>
    refine ((remove_findsRoom hbackend _ [id]).bind fun removed => ?_).refusesEarly
    cases removed with
    | zero => exact fun _ h => by cases h
    | succ => exact fun _ => trivial
  | deleteMany query =>
    refine RefusesEarly.map ((leavesStore_look _).bind_refusesEarly fun documents => ?_) _
    dsimp only
    split_ifs
    · exact fun _ => trivial
    · exact (remove_findsRoom hbackend _ _).refusesEarly
  | insertInto id path values => exact (changeList_refusesEarly hbackend).map _
  | removeFrom id path values => exact (changeList_refusesEarly hbackend).map _
  | updateArray id path matcher updates => exact (changeList_refusesEarly hbackend).map _

omit hbackend in
theorem insertAll_eq (raws : List Value) :
    collection.insertAll now raws = raws.mapM (collection.insertOne now) := by
  induction raws with
  | nil => rfl
  | cons raw rest ih => rw [Collection.insertAll, ih, List.mapM_cons]

omit hbackend in
theorem changeAll_eq (patch : Value) (existing : List Document) :
    collection.changeAll now patch existing =
      existing.mapM fun document => collection.changeOne now document patch := by
  induction existing with
  | nil => rfl
  | cons document rest ih => rw [Collection.changeAll, ih, List.mapM_cons]

/-- **Inserting several documents, of which one is too large**, inserts those before it. -/
theorem insertMany_refused {raws : List Value} {running after : Running FileStore} {e : Error}
    (h : collection.insertMany now raws running = (.error e, after)) (hlarge : e.TooLarge) :
    ∃ done raw rest documents middle, raws = done ++ raw :: rest ∧
      collection.insertMany now done running = (.ok documents, middle) ∧
      after.store = middle.store := by
  have hrow : raws.mapM (collection.insertOne now)
      { running with work := running.work.fresh } = (.error e, after) := by
    rw [← insertAll_eq]
    exact h
  obtain ⟨done, raw, rest, documents, middle, hraws, hdone, hfails⟩ := exists_failed_of_mapM hrow
  refine ⟨done, raw, rest, documents, middle, hraws, ?_, ?_⟩
  · rw [← insertAll_eq] at hdone
    exact hdone
  · exact (buildAndCommit_refusesEarly hbackend middle).of_error hfails hlarge

theorem selected_findsRoom {query : Query} {store : FileStore} {e : Error}
    (h : collection.selected query store = .error e) : ¬ e.TooLarge := by
  rcases bind_error_iff.mp h with hcheck | ⟨_, -, h⟩
  · unfold Query.check at hcheck
    split at hcheck
    · cases hcheck
      rintro ⟨⟩
    · cases hcheck
  rcases bind_error_iff.mp h with hdocuments | ⟨documents, -, h⟩
  · unfold Collection.documents at hdocuments
    rw [hbackend] at hdocuments
    exact (FileStore.documents_fails hdocuments : FileStore.Fails False e).not_tooLarge
  · cases h

/-- **Changing several documents, of which one becomes too large**, changes those before it. -/
theorem updateMany_refused {query : Query} {patch : Value} {running after : Running FileStore}
    {e : Error} (h : collection.updateMany now query patch running = (.error e, after))
    (hlarge : e.TooLarge) :
    ∃ done document rest changed middle,
      collection.selected query running.store = .ok (done ++ document :: rest) ∧
      collection.changeAll now patch done { running with work := running.work.fresh } =
        (.ok changed, middle) ∧
      after.store = middle.store := by
  have hupdate : collection.updateMany now query patch running =
      (Operation.look (collection.selected query) >>= fun existing => Operation.start >>=
        fun _ => collection.changeAll now patch existing) running := rfl
  rw [hupdate, step_bind] at h
  cases hselected : collection.selected query running.store with
  | error other =>
    have hlook : Operation.look (collection.selected query) running = (.error other, running) :=
      Prod.ext hselected rfl
    rw [hlook] at h
    cases h
    exact absurd hlarge (selected_findsRoom hbackend hselected)
  | ok existing =>
    have hlook : Operation.look (collection.selected query) running = (.ok existing, running) :=
      Prod.ext hselected rfl
    rw [hlook] at h
    have hrow : (existing.mapM fun document => collection.changeOne now document patch)
        { running with work := running.work.fresh } = (.error e, after) := by
      rw [← changeAll_eq]
      exact h
    obtain ⟨done, document, rest, changed, middle, rfl, hdone, hfails⟩ :=
      exists_failed_of_mapM hrow
    refine ⟨done, document, rest, changed, middle, rfl, ?_, ?_⟩
    · rw [← changeAll_eq] at hdone
      exact hdone
    · exact (buildAndCommit_refusesEarly hbackend middle).of_error hfails hlarge

end Calls

end DocumentDb
