import DocumentDb.Proofs.Database.Refusals
import DocumentDb.Proofs.Database.Tracing
import DocumentDb.Proofs.Database.Upkeep
import DocumentDb.Proofs.Store.Sizes
import Mathlib

/-!
# The builder and the store agree on sizes

The builder checks the size of each document alone, a store in files packs all documents of a
collection anew with every write. Both ask the same: that each document fits into a shard of its
own. So a write never fails for a reason of size, as long as what is stored re-encodes, and a
document that is too large is refused before anything of it is written (`sizes_agree`).

An operation on several documents builds and commits one after the other: those before the refused
one stay (`first_entry_stays`).
-/

namespace DocumentDb

/-! ### What calls keep -/

/-- **A store in files with the writes that were tried on it**: its shards are at most as large as
they may be, and no write to it has failed for a reason of size, except where a shard does not
re-encode. -/
structure Traced.Sized (shardMax : Nat) (traced : Traced FileStore) : Prop where
  bounded : traced.store.Bounded shardMax
  roomy : ∀ attempt ∈ traced.attempts, FileStore.Reencodes attempt.before.directory →
    ∀ e, attempt.error = some e → ¬ e.OfCapacity

theorem ensures_traced {σ α : Type} {change : Write σ α} {traced : Traced σ}
    {done : α → Traced σ → Prop} {failed : Error → Traced σ → Prop} :
    Ensures (Traced.write change) traced done failed ↔ Ensures change traced.store
      (fun a store => done a ⟨store, traced.attempts ++ [⟨traced.store, none⟩]⟩)
      (fun e store => failed e ⟨store, traced.attempts ++ [⟨traced.store, some e⟩]⟩) := by
  unfold Ensures Traced.write
  rcases change traced.store with ⟨result, store⟩
  cases result <;> rfl

section Sizes
variable {shardMax : Nat} {database : Database FileStore}

/-- A write keeps sizes if the store stays bounded and if the write fails for a reason of size only
where a shard does not re-encode. -/
theorem Traced.Sized.write {α : Type} {traced : Traced FileStore} (h : traced.Sized shardMax)
    {change : Write FileStore α}
    (hchange : Ensures change traced.store (fun _ after => after.Bounded shardMax)
      (fun e after => after.Bounded shardMax ∧
        (FileStore.Reencodes traced.store.directory → ¬ e.OfCapacity))) :
    ((Traced.write change traced).2).Sized shardMax := by
  have hafter : Ensures (Traced.write change) traced (fun _ after => after.Sized shardMax)
      (fun _ after => after.Sized shardMax) := by
    refine ensures_traced.mpr (hchange.mono ?_ ?_)
    · intro a store hstore
      refine ⟨hstore, fun attempt hin => ?_⟩
      rcases List.mem_append.mp hin with hin | hin
      · exact h.roomy attempt hin
      · rw [List.mem_singleton.mp hin]
        exact fun _ _ h => by cases h
    · rintro e store ⟨hstore, hfails⟩
      refine ⟨hstore, fun attempt hin => ?_⟩
      rcases List.mem_append.mp hin with hin | hin
      · exact h.roomy attempt hin
      · rw [List.mem_singleton.mp hin]
        intro hsame other hother
        cases hother
        exact hfails hsame
  exact hafter.state

variable (hbackend : database.backend = FileStore.backend)
include hbackend

/-- A bounded store tells the builder the size of its shards. -/
theorem vetting_of_bounded {now : Instant} {store : FileStore} (h : store.Bounded shardMax) :
    Vetting (database.context now store) shardMax fun _ _ => True where
  limit collection state hstate := by
    have hread : FileStore.state store collection = .ok state := by
      have hsame : database.backend.state store collection = .ok state := hstate
      rwa [hbackend] at hsame
    obtain ⟨count, -, hread⟩ := bind_ok_iff.mp hread
    obtain ⟨documents, -, hread⟩ := bind_ok_iff.mp hread
    obtain ⟨ids, -, hread⟩ := bind_ok_iff.mp hread
    cases hread
    exact h.shardMax_eq
  fetched _ _ _ _ := trivial
  inserted _ _ _ _ := trivial
  changed _ _ _ _ := trivial

/-- **Writes to a store in files keep sizes**, if what is stored fits. -/
theorem upholds_sized :
    database.traced.Upholds shardMax (fun _ _ => True) (Traced.Sized shardMax) where
  vetting _ _ h := vetting_of_bounded hbackend h.bounded
  all _ _ _ _ _ _ _ := trivial
  persist _ h _ _ hdocuments := by
    refine h.write ?_
    rw [hbackend]
    exact h.bounded.persist fun document hin => (hdocuments document hin).1
  remove _ h _ _ := by
    refine h.write ?_
    rw [hbackend]
    exact h.bounded.remove
  record _ h _ _ := by
    refine h.write ?_
    rw [hbackend]
    exact h.bounded.record

end Sizes

/-- A call on a store in files keeps it bounded, and its work vetted. -/
theorem perform_bounded {shardMax : Nat} {collection : Collection FileStore}
    (hbackend : collection.database.backend = FileStore.backend) (now : Instant) (call : Call)
    {running : Running FileStore} (hbounded : running.store.Bounded shardMax)
    (hvetted : running.work.Vetted collection.database.registry shardMax fun _ _ => True) :
    (collection.perform now call running).2.store.Bounded shardMax ∧
      (collection.perform now call running).2.work.Vetted collection.database.registry shardMax
        (fun _ _ => True) ∧
      ∀ attempt ∈ collection.attempts now call running,
        FileStore.Reencodes attempt.before.directory →
          ∀ e, attempt.error = some e → ¬ e.OfCapacity := by
  have hstart : Running.Upheld collection.database.registry shardMax (fun _ _ => True)
      (Traced.Sized shardMax) { store := ⟨running.store, []⟩, work := running.work } :=
    ⟨⟨hbounded, nofun⟩, hvetted⟩
  have hupholds : collection.traced.database.Upholds shardMax (fun _ _ => True)
      (Traced.Sized shardMax) := upholds_sized hbackend
  have hafter := perform_upheld hupholds now call hstart
  have hsame : (collection.perform now call running).2 =
      ((collection.traced.perform now call
        { store := ⟨running.store, []⟩, work := running.work }).2).plain :=
    congrArg Prod.snd (traces_perform collection now call
      { store := ⟨running.store, []⟩, work := running.work })
  rw [hsame]
  exact ⟨hafter.store.bounded, hafter.vetted, hafter.store.roomy⟩

/-- **Along every run a store in files that was empty at first stays bounded.** -/
theorem Reaches.bounded {database : Database FileStore}
    (hbackend : database.backend = FileStore.backend) {shardMax : Nat} {allowed : Call → Prop}
    {running : Running FileStore}
    (hreaches : database.Reaches allowed { store := { shardMax } } running) :
    running.store.Bounded shardMax ∧
      running.work.Vetted database.registry shardMax fun _ _ => True := by
  induction hreaches with
  | refl => exact ⟨FileStore.bounded_empty, nofun, nofun⟩
  | tail _ hstep ih =>
    obtain ⟨hcollection, -⟩ := hstep
    next name collection now call =>
      obtain ⟨rfl, -⟩ := collection_ok hcollection
      have hafter := perform_bounded hbackend now call ih.1 ih.2
      exact ⟨hafter.1, hafter.2.1⟩

/-- What the builder accepts fits into a shard, with all that came up on the way. -/
theorem built_fits {database : Database FileStore}
    (hbackend : database.backend = FileStore.backend) {shardMax : Nat} {store : FileStore}
    (hbounded : store.Bounded shardMax) {now : Instant} {name : String} {step : Build Document}
    {work built : Work} {document : Document}
    (hstep : (∃ raw, step = Build.create name raw) ∨
      ∃ existing patch, step = Build.change name existing patch)
    (hbuilt : step (database.context now store) work.fresh = (.ok document, built)) :
    document.FitsShard shardMax ∧ ∀ write ∈ built.pending, write.document.FitsShard shardMax := by
  have hvetting : Vetting (database.context now store) shardMax fun _ _ => True :=
    vetting_of_bounded hbackend hbounded
  have hvets : Build.Vets (database.context now store) shardMax (fun _ _ => True) step
      fun document => document.FitsShard shardMax := by
    rcases hstep with ⟨raw, rfl⟩ | ⟨existing, patch, rfl⟩
    · exact (Build.create_vets hvetting).mono fun _ h => h.1
    · exact (Build.change_vets hvetting trivial).mono fun _ h => h.1
  obtain ⟨hwork, hfits⟩ := (hvets _ Work.vetted_fresh).of_ok hbuilt
  exact ⟨hfits, fun write hin => (hwork.waiting write hin).1⟩

/-- **The builder and the store agree on sizes.** In every state that calls on a store in files lead
to: if its shards re-encode, all stored documents fit into a shard, and whatever the builder accepts
can be packed together with them. No write that a call tries fails for a reason of size where the
shards re-encode. A call on one document that is refused for its size writes nothing; one on
several documents has written those before the refused one. -/
theorem sizes_agree {database : Database FileStore}
    (hbackend : database.backend = FileStore.backend) {shardMax : Nat}
    {running : Running FileStore}
    (hreaches : database.Reaches (fun _ => True) { store := { shardMax } } running)
    {name : String} {collection : Collection FileStore}
    (hcollection : database.collection name = .ok collection) (now : Instant) :
    (FileStore.Reencodes running.store.directory →
      ∀ other found, database.backend.all running.store other = .ok found →
        (∀ document ∈ found, document.FitsShard shardMax) ∧
        ∀ step document built, ((∃ raw, step = Build.create name raw) ∨
            ∃ existing patch, step = Build.change name existing patch) →
          step (database.context now running.store) running.work.fresh = (.ok document, built) →
            ∃ shards, Shard.pack shardMax ((upsert found
              (writtenTo other (built.pending ++ [⟨name, document⟩]))).map Object.text) =
                .ok shards) ∧
    (∀ call, ∀ attempt ∈ collection.attempts now call running,
      FileStore.Reencodes attempt.before.directory →
        ∀ e, attempt.error = some e → ¬ e.OfCapacity) ∧
    (∀ call : Call, call.OfOne → ∀ e after,
      collection.perform now call running = (.error e, after) → e.TooLarge →
        after.store = running.store) ∧
    (∀ raws e after, collection.insertMany now raws running = (.error e, after) → e.TooLarge →
      ∃ done raw rest documents middle, raws = done ++ raw :: rest ∧
        collection.insertMany now done running = (.ok documents, middle) ∧
        after.store = middle.store) ∧
    ∀ query patch e after, collection.updateMany now query patch running = (.error e, after) →
      e.TooLarge → ∃ done document rest changed middle,
        collection.selected query running.store = .ok (done ++ document :: rest) ∧
        collection.changeAll now patch done { running with work := running.work.fresh } =
          (.ok changed, middle) ∧
        after.store = middle.store := by
  obtain ⟨rfl, -⟩ := collection_ok hcollection
  obtain ⟨hbounded, hvetted⟩ := Reaches.bounded hbackend hreaches
  refine ⟨fun hsame other found hfound => ?_, fun call => ?_, fun call hone e after h hlarge => ?_,
    fun raws e after h hlarge => ?_, fun query patch e after h hlarge => ?_⟩
  · have hstored : ∀ document ∈ found, document.FitsShard shardMax := by
      rw [hbackend] at hfound
      exact hbounded.shardsFit.documents hsame hfound
    refine ⟨hstored, fun step document built hstep hbuilt => Shard.exists_pack_of_fits ?_⟩
    obtain ⟨hbuiltFits, hwaiting⟩ := built_fits hbackend hbounded hstep hbuilt
    intro written hin
    rcases mem_of_mem_upsert hin with hin | hin
    · rcases List.mem_append.mp (mem_writtenTo.mp hin) with hin | hin
      · have hfits := hwaiting _ hin
        exact hfits
      · cases List.mem_singleton.mp hin
        exact hbuiltFits
    · exact hstored written hin
  · exact (perform_bounded hbackend now call hbounded hvetted).2.2
  · exact (refused_leaves hbackend hone running).of_error h hlarge
  · exact insertMany_refused hbackend h hlarge
  · exact updateMany_refused hbackend h hlarge

/-! ### A batch with a long entry -/

/-- The compiled schema of a log. -/
def logTree : Tree where
  collection := "log"
  id := .standard
  fields := [("t", .scalar .string {})]
  settings := {}

/-- A database of a log in files. -/
def logDatabase : Database FileStore where
  registry := { shardMax := 20, trees := [logTree] }
  backend := FileStore.backend
  source := IdSource.ofBytes .empty

/-- The log of the database. -/
def log : Collection FileStore := ⟨logDatabase, logTree⟩

/-- A store in files with small shards and no log. -/
def noLog : Running FileStore where
  store := { shardMax := 20 }

/-- The input for an entry of the log. -/
def entry (text : String) : Value := .object [("t", .string text)]

/-- The log after an entry that fits. -/
def shortLog : Running FileStore := (log.perform ⟨0, 0⟩ (.insert (entry "a")) noLog).2

theorem shortLog_files : shortLog.store.directory.files =
    [(["log", "_meta.json"], "\x7b\n  \"id_count\": 1\n\x7d"),
      (["log", "shard-0000.json"], "[\x7b\"id\":1,\"t\":\"a\"\x7d]")] := by
  cbv

/-- The counter of the log re-encodes: it is read as no documents. -/
theorem log_counter_reencodes {documents : List Document}
    (h : Shard.read "\x7b\n  \"id_count\": 1\n\x7d" = .ok documents) :
    Shard.text (documents.map Object.text) = "\x7b\n  \"id_count\": 1\n\x7d" := by
  have hread : Shard.read "\x7b\n  \"id_count\": 1\n\x7d" = .error .json := by cbv
  rw [hread] at h
  cases h

theorem shortLog_reencodes : FileStore.Reencodes shortLog.store.directory := by
  refine FileStore.reencodes_of_files fun file hin documents hread => ?_
  rw [shortLog_files] at hin
  rcases List.mem_cons.mp hin with rfl | hin
  · exact log_counter_reencodes hread
  · rw [List.mem_singleton.mp hin] at hread ⊢
    have hshard : Shard.read "[\x7b\"id\":1,\"t\":\"a\"\x7d]" =
        .ok [[("id", .ofNat 1), ("t", .string "a")]] := by cbv
    rw [hshard] at hread
    cases hread
    cbv

/-- The states that the store of the log goes through for its first entry: the counter is stored
before the entry. -/
theorem log_attempts : (log.attempts ⟨0, 0⟩ (.insert (entry "a")) noLog).map
    (·.before.directory.files) =
      [[], [(["log", "_meta.json"], "\x7b\n  \"id_count\": 1\n\x7d")]] := by
  cbv

/-- The log agrees on sizes: its entry fits, no write for it failed, and a long one is refused. -/
theorem shortLog_agrees :
    logDatabase.Reaches (fun _ => True) noLog shortLog ∧
    (∀ found, log.documents shortLog.store = .ok found →
      ∀ document ∈ found, document.FitsShard 20) ∧
    (∀ attempt ∈ log.attempts ⟨0, 0⟩ (.insert (entry "a")) noLog,
      ∀ e, attempt.error = some e → ¬ e.OfCapacity) ∧
    (log.perform ⟨1, 0⟩ (.insert (entry "too long")) shortLog).1 =
      .error (.capacity (.documentSize 23 18 20)) ∧
    (log.perform ⟨1, 0⟩ (.insert (entry "too long")) shortLog).2.store = shortLog.store := by
  have hlog : logDatabase.collection "log" = .ok log := rfl
  have hreaches : logDatabase.Reaches (fun _ => True) noLog shortLog :=
    .tail .refl (.call hlog trivial)
  have hrefused : (log.perform ⟨1, 0⟩ (.insert (entry "too long")) shortLog).1 =
      .error (.capacity (.documentSize 23 18 20)) := by cbv
  have hempty := @sizes_agree logDatabase rfl 20 noLog .refl "log" log hlog ⟨0, 0⟩
  have hshort := sizes_agree rfl hreaches hlog ⟨1, 0⟩
  refine ⟨hreaches, fun found hfound => ?_, fun attempt hin => ?_, hrefused, ?_⟩
  · exact (hshort.1 shortLog_reencodes "log" found hfound).1
  · refine hempty.2.1 (.insert (entry "a")) attempt hin ?_
    have hfiles := List.mem_map_of_mem (f := (·.before.directory.files)) hin
    rw [log_attempts] at hfiles
    refine FileStore.reencodes_of_files fun file hfile documents hread => ?_
    rcases List.mem_cons.mp hfiles with hfirst | hsecond
    · rw [hfirst] at hfile
      cases hfile
    · rw [List.mem_singleton.mp hsecond] at hfile
      rw [List.mem_singleton.mp hfile] at hread ⊢
      exact log_counter_reencodes hread
  · exact hshort.2.2.1 (.insert (entry "too long")) trivial _ _ (Prod.ext hrefused rfl) .document

/-- The batch is refused for its second entry. -/
theorem batch_refused : (log.insertMany ⟨0, 0⟩ [entry "a", entry "too long"] noLog).1 =
    .error (.capacity (.documentSize 23 18 20)) := by
  cbv

/-- The first entry of the batch is in the log. -/
theorem batch_stored :
    log.documents (log.insertMany ⟨0, 0⟩ [entry "a", entry "too long"] noLog).2.store =
      .ok [[("id", .ofNat 1), ("t", .string "a")]] := by
  cbv

/-- **A batch is not undone**: an entry that is too large is refused, and the one before it
stays. -/
theorem first_entry_stays :
    (log.insertMany ⟨0, 0⟩ [entry "a", entry "too long"] noLog).1 =
      .error (.capacity (.documentSize 23 18 20)) ∧
    log.documents noLog.store = .ok [] ∧
    log.documents (log.insertMany ⟨0, 0⟩ [entry "a", entry "too long"] noLog).2.store =
      .ok [[("id", .ofNat 1), ("t", .string "a")]] := by
  exact ⟨batch_refused, by cbv, batch_stored⟩

end DocumentDb
