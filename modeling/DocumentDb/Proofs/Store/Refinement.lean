import DocumentDb.Proofs.Store.Directories
import DocumentDb.Proofs.Store.Limits

/-!
# Stores in files as stores in memory

A store in files mirrors a store in memory if its directory is tidy and the files of each collection
are the shards of its documents and its counter. Every call keeps this, and is answered alike by
both, but for one difference: a store in files refuses to hold a document that is too large for a
shard. So it acts like a store in memory with that limit, and a call that is refused has no effect
on later answers.
-/

namespace DocumentDb

/-! ### Proper calls -/

/-- A call is proper if its collection has a plain name, its documents are read back from their
texts, and its counter fits 64 bits. -/
structure StoreCall.Proper (call : StoreCall) : Prop where
  plain : Plain call.collection
  readable : ∀ document ∈ call.documents, ReadsBack document
  counted : ∀ collection count, call = record collection count → count < wordBound

/-- No call makes a store in files need more shards for a collection than four digits can count. -/
def FileStore.FewShards (store : FileStore) : List StoreCall → Prop
  | [] => True
  | call :: rest =>
    (∀ stored shards, FileStore.backend.all store call.collection = .ok stored →
      Shard.pack store.shardMax ((call.leaves stored).map Object.text) = .ok shards →
      shards.length ≤ Shard.countMax) ∧
    FewShards (FileStore.backend.answer store call).2 rest

/-! ### Mirroring -/

namespace FileStore
variable {store : FileStore} {memory : MemoryStore} {collection : String}

theorem shardMax_after (store : FileStore) (calls : List StoreCall) :
    (backend.after store calls).shardMax = store.shardMax := by
  induction calls generalizing store with
  | nil => rfl
  | cons call rest ih =>
    have hcall : (backend.answer store call).2.shardMax = store.shardMax := by
      cases call <;> rfl
    exact (ih _).trans hcall

/-- The files of a collection are the shards of documents and a counter. -/
structure Keeps (shardMax : Nat) (directory : Directory) (collection : String)
    (documents : List Document) (count : Nat) : Prop where
  shards : ∃ shards, Shard.pack shardMax (documents.map Object.text) = .ok shards ∧
    shards.length ≤ Shard.countMax ∧
    ∀ index, directory.file? (shardPath collection index) = shards[index]?.map Shard.text
  readable : ∀ document ∈ documents, ReadsBack document
  counter : directory.file? (counterPath collection) = some (Counter.text count) ∨
    directory.file? (counterPath collection) = none ∧ count = 0
  counted : count < wordBound

section Reading
variable {directory : Directory} {documents : List Document} {shardMax count : Nat}

theorem mapM_shards (shards : List (List String)) (start : Nat)
    (h : ∀ index, directory.file? (shardPath collection (start + index)) =
      shards[index]?.map Shard.text) :
    ((List.range' start shards.length).map (shardPath collection)).mapM
        (fun path => do Shard.read (← directory.readFile path)) =
      (shards.map Shard.text).mapM Shard.read := by
  induction shards generalizing start with
  | nil => rfl
  | cons shard rest ih =>
    have hfirst : directory.readFile (shardPath collection start) = .ok (Shard.text shard) := by
      have h0 := h 0
      rw [Nat.add_zero] at h0
      rw [Directory.readFile, h0]
      rfl
    have hrest := ih (start + 1) fun index => by
      rw [Nat.add_assoc, Nat.add_comm 1]; exact h (index + 1)
    rw [List.length_cons, List.range'_succ, List.map_cons, List.mapM_cons, hrest, hfirst,
      List.map_cons, List.mapM_cons]
    rfl

/-- The documents that a directory keeps are read from it. -/
theorem Keeps.documents_eq (h : Keeps shardMax directory collection documents count)
    (htidy : directory.Tidy) (hplain : Plain collection) :
    FileStore.documents directory collection = .ok documents := by
  obtain ⟨shards, hpack, hfew, hfiles⟩ := h.shards
  obtain ⟨parts, hparts, hflat⟩ := Shard.read_packed hpack h.readable
  have hread := mapM_shards shards 0 fun index => by
    rw [Nat.zero_add]; exact hfiles index
  unfold FileStore.documents
  rw [shardPaths_eq htidy hplain hfew (isSome_shard_iff hfiles), firstShards,
    List.range_eq_range']
  show (do
    let shards ← ((List.range' 0 shards.length).map (shardPath collection)).mapM
      fun path => do Shard.read (← directory.readFile path)
    pure shards.flatten : Except Error (List Document)) = _
  rw [hread, hparts, ← hflat]
  rfl

/-- The counter that a directory keeps is read from it. -/
theorem Keeps.counter_eq (h : Keeps shardMax directory collection documents count)
    (htidy : directory.Tidy) : FileStore.counter directory collection = .ok count := by
  have hfolder : directory.isFolder (folder collection ++ [Counter.fileName]) = false :=
    htidy.isFolder_eq_false (by decide)
  unfold FileStore.counter
  dsimp only
  rw [Directory.contains, hfolder, Bool.false_or]
  rcases h.counter with hfile | ⟨hnone, rfl⟩
  · rw [counterPath] at hfile
    rw [hfile, Option.isSome_some, if_pos rfl, Directory.readFile, hfile]
    exact Counter.read_text h.counted
  · rw [counterPath] at hnone
    rw [hnone]
    rfl

end Reading

/-- **A store in files mirrors a store in memory.** -/
structure Mirrors (store : FileStore) (memory : MemoryStore) : Prop where
  shardMax : memory.shardMax = store.shardMax
  tidy : store.directory.Tidy
  keeps : ∀ collection, Plain collection → Keeps store.shardMax store.directory collection
    (memory.documents collection) (memory.count collection)

theorem mirrors_empty (shardMax : Nat) : Mirrors { shardMax } { shardMax } where
  shardMax := rfl
  tidy := Directory.tidy_empty
  keeps _ _ := ⟨⟨[], rfl, Nat.zero_le _, fun _ => rfl⟩, nofun, Or.inr ⟨rfl, rfl⟩,
    show 0 < wordBound by decide⟩

theorem ensures_write {α : Type} {change : Nat → Change α} {done : α → FileStore → Prop}
    {failed : Error → FileStore → Prop} :
    Ensures (write change) store done failed ↔
      Ensures (change store.shardMax) store.directory
        (fun a directory => done a { store with directory })
        (fun e directory => failed e { store with directory }) := by
  unfold Ensures write
  rcases change store.shardMax store.directory with ⟨result, directory⟩
  cases result <;> rfl

/-- What a directory keeps of a collection depends on the files of the collection only. -/
theorem Keeps.of_files {shardMax count : Nat} {directory after : Directory}
    {documents : List Document} (h : Keeps shardMax directory collection documents count)
    (hshards : ∀ index, after.file? (shardPath collection index) =
      directory.file? (shardPath collection index))
    (hcounter : after.file? (counterPath collection) = directory.file? (counterPath collection)) :
    Keeps shardMax after collection documents count where
  shards := by
    obtain ⟨shards, hpack, hfew, hfiles⟩ := h.shards
    exact ⟨shards, hpack, hfew, fun index => (hshards index).trans (hfiles index)⟩
  readable := h.readable
  counter := by rw [hcounter]; exact h.counter
  counted := h.counted

namespace Mirrors

theorem documents_eq (h : store.Mirrors memory) (hplain : Plain collection) :
    documents store.directory collection = .ok (memory.documents collection) :=
  (h.keeps collection hplain).documents_eq h.tidy hplain

theorem state_eq (h : store.Mirrors memory) (hplain : Plain collection) :
    FileStore.backend.state store collection = MemoryStore.limited.state memory collection := by
  show FileStore.state store collection = memory.state collection
  unfold FileStore.state MemoryStore.state
  rw [(h.keeps collection hplain).counter_eq h.tidy, h.documents_eq hplain, h.shardMax]
  rfl

theorem fetch_eq (h : store.Mirrors memory) (hplain : Plain collection) (id : DocId) :
    FileStore.backend.fetch store collection id =
      MemoryStore.limited.fetch memory collection id := by
  show (do
    let documents ← FileStore.documents store.directory collection
    pure (findDocument documents id) : Except Error (Option Document)) = _
  rw [h.documents_eq hplain]
  rfl

/-- A store whose directory is another one with the same files mirrors the same memory. -/
theorem of_files_eq (h : store.Mirrors memory) {after : Directory} (htidy : after.Tidy)
    (hfiles : after.files = store.directory.files) :
    Mirrors { store with directory := after } memory where
  shardMax := h.shardMax
  tidy := htidy
  keeps collection hplain :=
    (h.keeps collection hplain).of_files (fun _ => Directory.file?_of_files_eq hfiles _)
      (Directory.file?_of_files_eq hfiles _)

/-- Documents of a collection are written to the files as they are set in memory. -/
theorem ensures_writeDocuments (h : store.Mirrors memory) (hplain : Plain collection)
    {documents : List Document} (hreadable : ∀ document ∈ documents, ReadsBack document)
    (hneeds : ∀ shards, Shard.pack store.shardMax (documents.map Object.text) = .ok shards →
      shards.length ≤ Shard.countMax) {new : MemoryStore} (hmax : new.shardMax = memory.shardMax)
    (hdocuments : ∀ other, new.documents other =
      if collection = other then documents else memory.documents other)
    (hcount : ∀ other, new.count other = memory.count other) :
    Ensures (writeDocuments store.shardMax collection documents) store.directory
      (fun _ after =>
        (∃ shards, Shard.pack store.shardMax (documents.map Object.text) = .ok shards) ∧
        Mirrors { store with directory := after } new)
      (fun e after => Shard.pack store.shardMax (documents.map Object.text) = .error e ∧
        Mirrors { store with directory := after } memory) := by
  obtain ⟨stored, -, hfew, hfiles⟩ := (h.keeps collection hplain).shards
  refine (FileStore.ensures_writeDocuments h.tidy hplain hfew (isSome_shard_iff hfiles)
    hneeds).mono ?_ ?_
  · rintro - after ⟨htidy, ⟨shards, hpack, hshards⟩, hothers⟩
    refine ⟨⟨shards, hpack⟩, hmax.trans h.shardMax, htidy, fun other hother => ?_⟩
    rw [hcount]
    have hcounter : after.file? (counterPath other) = store.directory.file? (counterPath other) :=
      hothers _ fun _ => shardPath_ne_counterPath.symm
    rw [hdocuments]
    split_ifs with heq
    · subst heq
      have hkeeps := h.keeps collection hplain
      exact ⟨⟨shards, hpack, hneeds shards hpack, hshards⟩, hreadable,
        by rw [hcounter]; exact hkeeps.counter, hkeeps.counted⟩
    · refine (h.keeps other hother).of_files (fun i => hothers _ fun index hpath => ?_) hcounter
      exact heq (folder_inj hplain hother (List.append_singleton_inj.mp hpath).1.symm)
  · rintro e after ⟨hpack, htidy, hsame⟩
    exact ⟨hpack, h.of_files_eq htidy hsame⟩

theorem ensures_persist (h : store.Mirrors memory) (hplain : Plain collection)
    {new : List Document} (hnew : ∀ document ∈ new, ReadsBack document)
    (hneeds : ∀ shards, Shard.pack store.shardMax
      ((upsert (memory.documents collection) new).map Object.text) = .ok shards →
        shards.length ≤ Shard.countMax) :
    Ensures (FileStore.backend.persist collection new) store
      (fun _ after => (MemoryStore.limited.persist collection new memory).1 = .ok () ∧
        after.Mirrors (MemoryStore.limited.persist collection new memory).2)
      (fun e after => (MemoryStore.limited.persist collection new memory).1 = .error e ∧
        after.Mirrors (MemoryStore.limited.persist collection new memory).2) := by
  have hreadable : ∀ document ∈ upsert (memory.documents collection) new, ReadsBack document := by
    intro document hin
    rcases mem_of_mem_upsert hin with hin | hin
    · exact hnew document hin
    · exact (h.keeps collection hplain).readable document hin
  show Ensures (write fun shardMax => persist shardMax collection new) store _ _
  rw [ensures_write]
  refine ensures_bind.mpr (ensures_lookAt (h.documents_eq hplain) ?_)
  refine (h.ensures_writeDocuments hplain hreadable hneeds
    (show (memory.persist collection new).shardMax = memory.shardMax from rfl)
    (fun other => MemoryStore.documents_persist memory collection other new)
    (fun other => MemoryStore.count_persist memory collection other new)).mono ?_ ?_
  · rintro - after ⟨⟨shards, hpack⟩, hafter⟩
    rw [← h.shardMax] at hpack
    rw [MemoryStore.limited_persist, hpack]
    exact ⟨rfl, hafter⟩
  · rintro e after ⟨hpack, hafter⟩
    rw [← h.shardMax] at hpack
    rw [MemoryStore.limited_persist, hpack]
    exact ⟨rfl, hafter⟩

theorem ensures_remove (h : store.Mirrors memory) (hplain : Plain collection) {ids : List DocId}
    (hneeds : ∀ shards, Shard.pack store.shardMax
      ((withoutIds (memory.documents collection) ids).map Object.text) = .ok shards →
        shards.length ≤ Shard.countMax) :
    Ensures (FileStore.backend.remove collection ids) store
      (fun count after => count = (memory.documents collection).length -
          (withoutIds (memory.documents collection) ids).length ∧
        after.Mirrors (memory.remove collection ids))
      (fun _ _ => False) := by
  have hfew : (withoutIds (memory.documents collection) ids).Sublist
      (memory.documents collection) := List.filter_sublist
  have hkeeps := h.keeps collection hplain
  show Ensures (write fun shardMax => remove shardMax collection ids) store _ _
  rw [ensures_write]
  refine ensures_bind.mpr (ensures_lookAt (h.documents_eq hplain) ?_)
  dsimp only
  split_ifs with hremoved
  · refine ensures_bind.mpr ((h.ensures_writeDocuments hplain
      (fun document hin => hkeeps.readable document (hfew.subset hin)) hneeds
      (show (memory.remove collection ids).shardMax = memory.shardMax from rfl)
      (fun other => ?_)
      (fun other => MemoryStore.count_remove memory collection other ids)).mono ?_ ?_)
    · rw [MemoryStore.documents_remove]
      split_ifs with heq
      · rw [heq]
      · rfl
    · rintro - after ⟨-, hafter⟩
      exact ⟨rfl, hafter⟩
    · -- the texts of the documents that are left fit as they did before
      rintro e after ⟨hfail, -⟩
      obtain ⟨stored, hstored, -⟩ := hkeeps.shards
      obtain ⟨shards, hpack⟩ := Shard.exists_pack_of_subset ⟨stored, hstored⟩ (hfew.map _).subset
      rw [hfail] at hpack
      cases hpack
  · -- nothing is removed, so nothing is written
    have hsame : withoutIds (memory.documents collection) ids = memory.documents collection :=
      hfew.eq_of_length_le (by omega)
    refine ⟨rfl, h.shardMax, h.tidy, fun other hother => ?_⟩
    rw [MemoryStore.count_remove, MemoryStore.documents_remove]
    split_ifs with heq
    · rw [← heq, hsame]
      exact heq ▸ h.keeps other hother
    · exact h.keeps other hother

theorem ensures_record (h : store.Mirrors memory) (hplain : Plain collection) {count : Nat}
    (hcount : count < wordBound) :
    Ensures (FileStore.backend.record collection count) store
      (fun _ after => after.Mirrors (memory.record collection count)) (fun _ _ => False) := by
  show Ensures (write fun _ => record collection count) store _ _
  rw [ensures_write]
  refine (Directory.ensures_makeFolders h.tidy hplain).bind ?_
  rintro - made ⟨hmade, hfolder, hfiles⟩
  refine (Directory.ensures_writeFile hmade hplain hfolder .counter).mono ?_ fun _ _ => id
  rintro - after ⟨hafter, -, hwritten⟩
  have hsame : ∀ path, path ≠ counterPath collection →
      after.file? path = store.directory.file? path := by
    intro path hne
    exact (hwritten path).trans ((if_neg hne).trans (Directory.file?_of_files_eq hfiles path))
  refine ⟨h.shardMax, hafter, fun other hother => ?_⟩
  have hkeeps := h.keeps other hother
  have hshards : ∀ index, after.file? (shardPath other index) =
      store.directory.file? (shardPath other index) := fun _ => hsame _ shardPath_ne_counterPath
  rw [MemoryStore.documents_record, MemoryStore.count_record]
  split_ifs with heq
  · subst heq
    obtain ⟨shards, hpack, hfew, hkept⟩ := hkeeps.shards
    exact ⟨⟨shards, hpack, hfew, fun index => (hshards index).trans (hkept index)⟩,
      hkeeps.readable, Or.inl ((hwritten _).trans (if_pos rfl)), hcount⟩
  · refine hkeeps.of_files hshards (hsame _ fun hpath => heq ?_)
    exact folder_inj hplain hother (List.append_singleton_inj.mp hpath).1.symm

/-- A write with the outcome of a write to the store in memory. -/
theorem agree_of_ensures {α : Type} {write : Write FileStore α} (other : Write MemoryStore α)
    (h : Ensures write store
      (fun a after => (other memory).1 = .ok a ∧ after.Mirrors (other memory).2)
      (fun e after => (other memory).1 = .error e ∧ after.Mirrors (other memory).2)) :
    (write store).1 = (other memory).1 ∧ (write store).2.Mirrors (other memory).2 := by
  unfold Ensures at h
  split at h
  · next heq => rw [heq]; exact ⟨h.1.symm, h.2⟩
  · next heq => rw [heq]; exact ⟨h.1.symm, h.2⟩

/-- **A call to a store in files is answered as by the store in memory that it mirrors**, and it
mirrors that store afterwards too. -/
theorem step (h : store.Mirrors memory) {call : StoreCall} (hproper : call.Proper)
    (hneeds : ∀ shards, Shard.pack store.shardMax
      ((call.leaves (memory.documents call.collection)).map Object.text) = .ok shards →
        shards.length ≤ Shard.countMax) :
    (FileStore.backend.answer store call).1 = (MemoryStore.limited.answer memory call).1 ∧
      (FileStore.backend.answer store call).2.Mirrors
        (MemoryStore.limited.answer memory call).2 := by
  have hplain := hproper.plain
  cases call with
  | state collection => exact ⟨congrArg _ (h.state_eq hplain), h⟩
  | fetch collection id => exact ⟨congrArg _ (h.fetch_eq hplain id), h⟩
  | all collection => exact ⟨congrArg _ (h.documents_eq hplain), h⟩
  | persist collection documents =>
    obtain ⟨hresult, hafter⟩ :=
      agree_of_ensures _ (h.ensures_persist hplain hproper.readable hneeds)
    exact ⟨congrArg _ hresult, hafter⟩
  | remove collection ids =>
    obtain ⟨hresult, hafter⟩ := agree_of_ensures (MemoryStore.limited.remove collection ids)
      ((h.ensures_remove hplain hneeds).mono
        (fun _ _ hdone => ⟨congrArg _ hdone.1.symm, hdone.2⟩) fun _ _ => False.elim)
    exact ⟨congrArg _ hresult, hafter⟩
  | record collection count =>
    obtain ⟨hresult, hafter⟩ := agree_of_ensures (MemoryStore.limited.record collection count)
      ((h.ensures_record hplain (hproper.counted _ _ rfl)).mono
        (fun _ _ hdone => ⟨rfl, hdone⟩) fun _ _ => False.elim)
    exact ⟨congrArg _ hresult, hafter⟩

/-! ### Runs of calls -/

variable {calls : List StoreCall}

/-- What a call needs of a store that mirrors the same memory. -/
theorem needs (h : store.Mirrors memory) {call : StoreCall} {rest : List StoreCall}
    (hproper : call.Proper) (hfew : store.FewShards (call :: rest)) {other : FileStore}
    (hother : other.Mirrors memory) (shards : List (List String))
    (hpack : Shard.pack other.shardMax
      ((call.leaves (memory.documents call.collection)).map Object.text) = .ok shards) :
    shards.length ≤ Shard.countMax := by
  rw [← hother.shardMax, h.shardMax] at hpack
  exact hfew.1 _ shards (h.documents_eq hproper.plain) hpack

/-- **Stores in files that mirror the same store in memory give its answers.** -/
theorem answers_eq (h : store.Mirrors memory) (hproper : ∀ call ∈ calls, call.Proper)
    (hfew : store.FewShards calls) {other : FileStore} (hother : other.Mirrors memory) :
    FileStore.backend.answers other calls = MemoryStore.limited.answers memory calls := by
  induction calls generalizing store memory other with
  | nil => rfl
  | cons call rest ih =>
    obtain ⟨hcall, hrest⟩ := List.forall_mem_cons.mp hproper
    obtain ⟨-, hafter⟩ := h.step hcall (h.needs hcall hfew h)
    obtain ⟨hanswer, hafter'⟩ := hother.step hcall (h.needs hcall hfew hother)
    unfold Backend.answers
    rw [hanswer, ih hafter hrest hfew.2 hafter']

/-- After some of the calls a store in files still mirrors a store in memory. -/
theorem after_calls (h : store.Mirrors memory) {before rest : List StoreCall}
    (hproper : ∀ call ∈ before, call.Proper) (hfew : store.FewShards (before ++ rest)) :
    (FileStore.backend.after store before).Mirrors (MemoryStore.limited.after memory before) ∧
      (FileStore.backend.after store before).FewShards rest := by
  induction before generalizing store memory with
  | nil => exact ⟨h, hfew⟩
  | cons call before ih =>
    obtain ⟨hcall, hbefore⟩ := List.forall_mem_cons.mp hproper
    obtain ⟨-, hafter⟩ := h.step hcall (h.needs hcall hfew h)
    exact ih hafter hbefore hfew.2

/-- At most as many documents as shards can be told apart never need too many shards. -/
theorem fewShards (h : store.Mirrors memory) (hproper : ∀ call ∈ calls, call.Proper) {count : Nat}
    (hstored : ∀ collection, (memory.documents collection).length ≤ count)
    (hcount : count + (calls.flatMap StoreCall.documents).length ≤ Shard.countMax) :
    store.FewShards calls := by
  induction calls generalizing store memory count with
  | nil => trivial
  | cons call rest ih =>
    obtain ⟨hcall, hrest⟩ := List.forall_mem_cons.mp hproper
    rw [List.flatMap_cons, List.length_append] at hcount
    have hneeds : ∀ shards, Shard.pack store.shardMax
        ((call.leaves (memory.documents call.collection)).map Object.text) = .ok shards →
          shards.length ≤ Shard.countMax := by
      intro shards hpack
      have hle := Shard.length_pack_le hpack
      have hleaves := call.length_leaves_le (memory.documents call.collection)
      have := hstored call.collection
      rw [List.length_map] at hle
      omega
    refine ⟨fun stored shards hall hpack => ?_, ?_⟩
    · have hsame : stored = memory.documents call.collection := by
        have := hall.symm.trans (h.documents_eq hcall.plain)
        cases this
        rfl
      rw [hsame] at hpack
      exact hneeds shards hpack
    · obtain ⟨-, hafter⟩ := h.step hcall hneeds
      have hnext : ∀ other, ((MemoryStore.limited.answer memory call).2.documents other).length ≤
          count + call.documents.length := by
        intro other
        have := hstored other
        rcases MemoryStore.documents_answer memory call other with hsame | ⟨rfl, hnew⟩
        · rw [hsame]
          omega
        · rw [hnew]
          exact (call.length_leaves_le _).trans (by omega)
      exact ih hafter hrest hnext (by omega)

end Mirrors

end FileStore

/-- **Stores in files refine stores in memory.** If every stored document fits into a shard, both
answer all calls alike. Storing a document that does not fit is refused with the limit as the
reason, and makes no difference to what is answered later. -/
theorem files_refine_memory {shardMax : Nat} {calls : List StoreCall}
    (hproper : ∀ call ∈ calls, call.Proper) (hfew : FileStore.FewShards { shardMax } calls) :
    ((∀ collection documents, .persist collection documents ∈ calls →
        ∀ document ∈ documents, document.byteSize ≤ documentMax shardMax) →
      FileStore.backend.answers { shardMax } calls =
        MemoryStore.backend.answers { shardMax } calls) ∧
    ∀ before collection documents after,
      calls = before ++ .persist collection documents :: after →
      ∃ stored, FileStore.backend.all (FileStore.backend.after { shardMax } before) collection =
          .ok stored ∧
        ((∃ document ∈ upsert stored documents, documentMax shardMax < document.byteSize) →
          ∃ size, FileStore.backend.answers { shardMax } calls =
            FileStore.backend.answers { shardMax } before ++
              .persisted (.error (.capacity (.shardSize size shardMax))) ::
                FileStore.backend.answers (FileStore.backend.after { shardMax } before) after) := by
  have hstart := FileStore.mirrors_empty shardMax
  refine ⟨fun hfit => ?_, ?_⟩
  · rw [hstart.answers_eq hproper hfew hstart]
    exact MemoryStore.Fits.answers_eq (fun _ _ hin => by cases hin) hfit
  · rintro before collection documents after rfl
    obtain ⟨hbefore, hthen⟩ := List.forall_mem_append.mp hproper
    obtain ⟨hpersist, hafter⟩ := List.forall_mem_cons.mp hthen
    obtain ⟨hmirrors, hfew⟩ := hstart.after_calls hbefore hfew
    refine ⟨_, hmirrors.documents_eq hpersist.plain, fun ⟨document, hin, hlarge⟩ => ?_⟩
    have hmax : (MemoryStore.limited.after { shardMax } before).shardMax = shardMax :=
      hmirrors.shardMax.trans (FileStore.shardMax_after _ _)
    obtain ⟨size, hpack⟩ := Shard.pack_of_large ⟨_, List.mem_map_of_mem hin, hlarge⟩
    have hrefused : MemoryStore.limited.answer (MemoryStore.limited.after { shardMax } before)
        (.persist collection documents) =
          (.persisted (.error (.capacity (.shardSize size shardMax))),
            MemoryStore.limited.after { shardMax } before) := by
      simp only [Backend.answer, MemoryStore.limited_persist, hmax, hpack]
    obtain ⟨hanswer, hstill⟩ :=
      hmirrors.step hpersist (hmirrors.needs hpersist hfew hmirrors)
    rw [hrefused] at hanswer hstill
    refine ⟨size, ?_⟩
    rw [Backend.answers_append, Backend.answers, hanswer]
    -- the store before the call and the one after it mirror the same memory
    rw [hstill.answers_eq hafter hfew.2 hstill, hstill.answers_eq hafter hfew.2 hmirrors]

/-! ### A note that is too large -/

/-- A note with a text. -/
def note (id : Nat) (text : String) : Document := [(idKey, .ofNat id), ("text", .string text)]

/-- A note that a shard of forty bytes can hold. -/
def shortNote : Document := note 1 "milk"

/-- A note that a shard of forty bytes cannot hold. -/
def longNote : Document := note 1 "a note that is far too long"

/-- Two notes are to be stored, of which the second is too large. -/
def noteCalls : List StoreCall :=
  [.persist "notes" [shortNote], .persist "notes" [longNote], .all "notes"]

theorem noteCalls_proper : ∀ call ∈ noteCalls, call.Proper := by
  have hshort : ReadsBack shortNote := by
    unfold ReadsBack
    cbv
  have hlong : ReadsBack longNote := by
    unfold ReadsBack
    cbv
  have hplain : Plain "notes" := by decide
  intro call hin
  rcases List.mem_cons.mp hin with rfl | hin
  · exact ⟨hplain, List.forall_mem_singleton.mpr hshort, fun _ _ h => by cases h⟩
  · rcases List.mem_cons.mp hin with rfl | hin
    · exact ⟨hplain, List.forall_mem_singleton.mpr hlong, fun _ _ h => by cases h⟩
    · rw [List.mem_singleton.mp hin]
      exact ⟨hplain, List.forall_mem_nil _, fun _ _ h => by cases h⟩

theorem noteCalls_few : FileStore.FewShards { shardMax := 40 } noteCalls :=
  (FileStore.mirrors_empty 40).fewShards noteCalls_proper (fun _ => Nat.le_refl 0) (by decide)

/-- The long note is refused, and all notes are answered as if it had never been there. -/
theorem long_note_refused :
    (∀ call ∈ noteCalls, call.Proper) ∧ FileStore.FewShards { shardMax := 40 } noteCalls ∧
    ∃ size, FileStore.backend.answers { shardMax := 40 } noteCalls =
      FileStore.backend.answers { shardMax := 40 } [.persist "notes" [shortNote]] ++
        .persisted (.error (.capacity (.shardSize size 40))) ::
          FileStore.backend.answers
            (FileStore.backend.after { shardMax := 40 } [.persist "notes" [shortNote]])
            [.all "notes"] := by
  refine ⟨noteCalls_proper, noteCalls_few, ?_⟩
  obtain ⟨stored, -, hrefused⟩ := (files_refine_memory noteCalls_proper noteCalls_few).2
    [.persist "notes" [shortNote]] "notes" [longNote] [.all "notes"] rfl
  exact hrefused ⟨longNote, mem_putDocument_self stored longNote, by decide⟩

end DocumentDb
