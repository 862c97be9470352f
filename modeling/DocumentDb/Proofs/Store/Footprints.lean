import DocumentDb.Proofs.Store.Refinement
import Mathlib.Logic.Relation

/-!
# What calls touch in a directory

Whatever the names of collections are, a call to a store in files touches its directory in three
ways only: it makes a folder on the way to the folder of its collection, it writes a shard or the
counter into this folder, and it removes a file that the pattern of the shards of its collection
finds. A call is a sequence of such touches, whether it succeeds or fails (`answer_touches`), so
what every touch keeps holds after every call.

So every folder and every file of a store stays in a folder (`Directory.Rooted`), and the shards of
a collection are what its pattern finds, whether its folder was made or not.
-/

namespace DocumentDb

namespace FileStore

/-! ### Touches -/

/-- The pattern of the shards of a collection finds a path. -/
def Finds (collection : String) (path : Path) : Prop :=
  ∃ parts, Wildcard.parts? (folder collection ++ [Shard.filePattern]) = some parts ∧
    Wildcard.matchesPath parts path

/-- Whatever the name of a collection is, what its pattern finds is named like a shard. -/
theorem Finds.exists_name {collection : String} {path : Path} (h : Finds collection path) :
    ∃ front name, path = front ++ [name] ∧
      Wildcard.matchesName Wildcard.shardTokens name.toList := by
  obtain ⟨parts, hparts, hmatches⟩ := h
  rw [Wildcard.parts?, List.mapM_append, Option.bind_eq_bind, Option.bind_eq_some_iff] at hparts
  obtain ⟨front, -, hparts⟩ := hparts
  have hlast : parts = front ++ [.name Wildcard.shardTokens] := by
    simpa [Wildcard.part?_filePattern] using hparts.symm
  exact Wildcard.exists_name_of_matchesPath hmatches hlast

/-- **A touch**: one change of a directory on behalf of a collection, into whose folder files with
some names and texts are written. -/
inductive Touch (collection : String) (written : String → String → Prop) (directory : Directory) :
    Directory → Prop
  | folder {path : Path} (hpath : path <+: folder collection)
    (hparent : directory.isFolder path.dropLast) :
    Touch collection written directory { directory with folders := directory.folders ++ [path] }
  | file {name text : String} (hfolder : directory.isFolder (folder collection))
    (hwritten : written name text) :
    Touch collection written directory { directory with
      files := Directory.putFile (folder collection ++ [name]) text directory.files }
  | remove {path : Path} (hfound : Finds collection path) :
    Touch collection written directory { directory with
      files := directory.files.filter (·.1 ≠ path) }

/-- Touches one after the other. -/
abbrev Touches (collection : String) (written : String → String → Prop) :
    Directory → Directory → Prop :=
  Relation.ReflTransGen (Touch collection written)

/-- **The files that a call writes**: the shards of the documents that the collection is to hold,
or the counter. -/
inductive Writes (store : FileStore) (call : StoreCall) : String → String → Prop
  | shard {stored : List Document} {shards : List (List String)} {shard : List String} {index : Nat}
    (hstored : documents store.directory call.collection = .ok stored)
    (hpack : Shard.pack store.shardMax ((call.leaves stored).map Object.text) = .ok shards)
    (hin : shard ∈ shards) : Writes store call (Shard.fileName index) (Shard.text shard)
  | counter {count : Nat} (hcall : call = .record call.collection count) :
    Writes store call Counter.fileName (Counter.text count)

section Touches
variable {collection : String} {written : String → String → Prop} {directory after : Directory}
  {shardMax : Nat}

/-- Folders stay. -/
theorem Touch.isFolder (h : Touch collection written directory after) {path : Path}
    (hfolder : directory.isFolder path) : after.isFolder path := by
  cases h with
  | folder =>
    simp only [Directory.isFolder, List.contains_append, Bool.or_eq_true] at hfolder ⊢
    exact hfolder.imp_right Or.inl
  | file | remove => exact hfolder

theorem Touches.isFolder (h : Touches collection written directory after) {path : Path}
    (hfolder : directory.isFolder path) : after.isFolder path := by
  induction h with
  | refl => exact hfolder
  | tail _ htouch ih => exact htouch.isFolder ih

theorem ensures_makeFoldersFrom {above rest : Path} (hpath : above ++ rest = folder collection)
    (habove : directory.isFolder above) :
    Ensures (Directory.makeFoldersFrom above rest) directory
      (fun _ after => Touches collection written directory after ∧
        after.isFolder (folder collection))
      (fun _ after => Touches collection written directory after) := by
  induction rest generalizing above directory with
  | nil =>
    rw [List.append_nil] at hpath
    exact ⟨.refl, hpath ▸ habove⟩
  | cons name rest ih =>
    have hnext : above ++ [name] ++ rest = folder collection := by simpa using hpath
    unfold Directory.makeFoldersFrom
    simp only [ensures_bind, ensures_get]
    cases hfile : (directory.file? (above ++ [name])).isSome with
    | true => exact Relation.ReflTransGen.refl
    | false =>
      simp only [Bool.false_eq_true, if_false]
      split_ifs with hfolder
      · have htouch : Touch collection written directory
            { directory with folders := directory.folders ++ [above ++ [name]] } :=
          .folder ⟨rest, hnext⟩ (by rwa [List.dropLast_concat])
        have hthere : Directory.isFolder { directory with
            folders := directory.folders ++ [above ++ [name]] } (above ++ [name]) := by
          simp [Directory.isFolder]
        refine (ih hnext hthere).mono ?_ ?_
        · exact fun _ _ h => ⟨.head htouch h.1, h.2⟩
        · exact fun _ _ h => .head htouch h
      · exact ih hnext (by simpa using hfolder)

theorem ensures_writeShards_touches {index : Nat} {shards : List (List String)}
    (hfolder : directory.isFolder (folder collection))
    (hwritten : ∀ shard ∈ shards, ∀ index, written (Shard.fileName index) (Shard.text shard)) :
    Ensures (writeShards (folder collection) index shards) directory
      (fun _ after => Touches collection written directory after)
      (fun _ after => Touches collection written directory after) := by
  induction shards generalizing directory index with
  | nil => exact Relation.ReflTransGen.refl
  | cons shard rest ih =>
    obtain ⟨hshard, hrest⟩ := List.forall_mem_cons.mp hwritten
    unfold writeShards Directory.writeFile
    simp only [ensures_bind, ensures_get]
    split_ifs with hplace
    · have htouch := Touch.file hfolder (hshard index)
      refine (ih (htouch.isFolder hfolder) hrest).mono ?_ ?_ <;>
        exact fun _ _ h => .head htouch h
    · exact Relation.ReflTransGen.refl

theorem ensures_removeFiles_touches {paths : List Path} (hfound : ∀ path ∈ paths,
    Finds collection path) :
    Ensures (removeFiles paths) directory
      (fun _ after => Touches collection written directory after)
      (fun _ after => Touches collection written directory after) := by
  induction paths generalizing directory with
  | nil => exact Relation.ReflTransGen.refl
  | cons path rest ih =>
    obtain ⟨hpath, hrest⟩ := List.forall_mem_cons.mp hfound
    unfold removeFiles Directory.removeFile
    simp only [ensures_bind, ensures_get]
    split_ifs with hfile
    · have htouch : Touch collection written directory _ := .remove hpath
      refine (ih hrest).mono ?_ ?_ <;> exact fun _ _ h => .head htouch h
    · exact Relation.ReflTransGen.refl

/-- What is found by the pattern of a collection. -/
theorem finds_of_mem {paths : List Path} (h : shardPaths directory collection = .ok paths)
    {path : Path} (hin : path ∈ paths) : Finds collection path := by
  unfold shardPaths Wildcard.find at h
  dsimp only at h
  split at h
  · split at h
    · cases h
    · next parts hparts =>
      cases h
      rw [List.mem_mergeSort, List.mem_filter] at hin
      exact ⟨parts, hparts, hin.2⟩
  · cases h
    cases hin

/-- A document of a collection is in a shard that is found. -/
theorem exists_shard_of_mem {found : List Document}
    (h : documents directory collection = .ok found) {document : Document}
    (hin : document ∈ found) : ∃ path text part, Finds collection path ∧
      directory.file? path = some text ∧ Shard.read text = .ok part ∧ document ∈ part := by
  obtain ⟨paths, hpaths, h⟩ := bind_ok_iff.mp h
  obtain ⟨parts, hparts, h⟩ := bind_ok_iff.mp h
  cases h
  obtain ⟨part, hpart, hin⟩ := List.mem_flatten.mp hin
  obtain ⟨path, hpath, hread⟩ := exists_of_mem_mapM hparts hpart
  obtain ⟨text, htext, hread⟩ := bind_ok_iff.mp hread
  refine ⟨path, text, part, finds_of_mem hpaths hpath, ?_, hread, hin⟩
  unfold Directory.readFile at htext
  split at htext
  · next heq =>
    cases htext
    exact heq
  · cases htext

theorem ensures_writeDocuments_touches {documents : List Document}
    (hwritten : ∀ shards, Shard.pack shardMax (documents.map Object.text) = .ok shards →
      ∀ shard ∈ shards, ∀ index, written (Shard.fileName index) (Shard.text shard)) :
    Ensures (writeDocuments shardMax collection documents) directory
      (fun _ after => Touches collection written directory after)
      (fun _ after => Touches collection written directory after) := by
  refine (ensures_makeFoldersFrom (List.nil_append _) rfl).bind ?_
  rintro - made ⟨hmade, hfolder⟩
  rcases hpack : Shard.pack shardMax (documents.map Object.text) with e | shards
  · exact ensures_bind.mpr (ensures_lookAt_error rfl hmade)
  · refine ensures_bind.mpr (ensures_lookAt rfl ?_)
    refine ((ensures_writeShards_touches hfolder (hwritten shards hpack)).mono
      (fun _ _ h => hmade.trans h) fun _ _ h => hmade.trans h).bind ?_
    intro _ filled hfilled
    cases hpaths : shardPaths filled collection with
    | error e => exact ensures_bind.mpr (ensures_lookAt_error hpaths hfilled)
    | ok paths =>
      refine ensures_bind.mpr (ensures_lookAt hpaths ?_)
      have hfound : ∀ path ∈ paths.filter fun path => !isAmongFirst shards.length path,
          Finds collection path := fun path hin => finds_of_mem hpaths (List.mem_filter.mp hin).1
      exact (ensures_removeFiles_touches hfound).mono (fun _ _ h => hfilled.trans h)
        fun _ _ h => hfilled.trans h

end Touches

/-! ### Calls -/

variable {store : FileStore}

/-- A write to a store whose change of the directory consists of touches. -/
theorem touches_of_ensures {α : Type} {collection : String} {written : String → String → Prop}
    (change : Nat → Change α)
    (h : Ensures (change store.shardMax) store.directory
      (fun _ after => Touches collection written store.directory after)
      (fun _ after => Touches collection written store.directory after)) :
    Touches collection written store.directory (write change store).2.directory := by
  have hwrite : Ensures (write change) store
      (fun _ after => Touches collection written store.directory after.directory)
      (fun _ after => Touches collection written store.directory after.directory) :=
    ensures_write.mpr h
  exact hwrite.state

/-- **A call touches the directory of its store** on behalf of its collection, whether it succeeds
or fails. -/
theorem answer_touches (store : FileStore) (call : StoreCall) :
    Touches call.collection (Writes store call) store.directory
      (backend.answer store call).2.directory := by
  cases call with
  | state | fetch | all => exact .refl
  | persist collection new =>
    refine touches_of_ensures (fun shardMax => persist shardMax collection new) ?_
    rcases hstored : documents store.directory collection with e | stored
    · exact ensures_bind.mpr (ensures_lookAt_error hstored .refl)
    · refine ensures_bind.mpr (ensures_lookAt hstored ?_)
      exact ensures_writeDocuments_touches fun _ hpack _ hin _ => .shard hstored hpack hin
  | remove collection ids =>
    refine touches_of_ensures (fun shardMax => remove shardMax collection ids) ?_
    rcases hstored : documents store.directory collection with e | stored
    · exact ensures_bind.mpr (ensures_lookAt_error hstored .refl)
    · refine ensures_bind.mpr (ensures_lookAt hstored ?_)
      dsimp only
      split_ifs with hremoved
      · refine ensures_bind.mpr ((ensures_writeDocuments_touches
          fun _ hpack _ hin _ => .shard hstored hpack hin).mono (fun _ _ h => h) fun _ _ h => h)
      · exact Relation.ReflTransGen.refl
  | record collection count =>
    refine touches_of_ensures (fun _ => record collection count) ?_
    refine (ensures_makeFoldersFrom (List.nil_append _) rfl).bind ?_
    rintro - made ⟨hmade, hfolder⟩
    unfold Directory.writeFile
    simp only [ensures_bind, ensures_get]
    split_ifs with hplace
    · exact hmade.tail (.file hfolder (.counter rfl))
    · exact hmade

end FileStore

/-! ### Rooted directories -/

/-- **Everything in a directory is in a folder of it.** -/
structure Directory.Rooted (directory : Directory) : Prop where
  folders : ∀ path ∈ directory.folders, directory.isFolder path.dropLast
  files : ∀ path ∈ directory.files.map (·.1), directory.isFolder path.dropLast

namespace FileStore
variable {collection : String} {written : String → String → Prop} {directory after : Directory}

theorem Touch.rooted (h : Touch collection written directory after) (hrooted : directory.Rooted) :
    after.Rooted := by
  have hstay {path : Path} (hfolder : directory.isFolder path) := h.isFolder hfolder
  cases h with
  | folder hpath hparent =>
    refine ⟨fun path hin => ?_, fun path hin => hstay (hrooted.files path hin)⟩
    rcases List.mem_append.mp hin with hin | hin
    · exact hstay (hrooted.folders path hin)
    · rw [List.mem_singleton.mp hin]
      exact hstay hparent
  | file hfolder hwritten =>
    refine ⟨hrooted.folders, fun path hin => ?_⟩
    rw [Directory.map_putFile] at hin
    split_ifs at hin
    · exact hrooted.files path hin
    · rcases List.mem_append.mp hin with hin | hin
      · exact hrooted.files path hin
      · rw [List.mem_singleton.mp hin, List.dropLast_concat]
        exact hfolder
  | remove hfound =>
    refine ⟨hrooted.folders, fun path hin => hrooted.files path ?_⟩
    exact (List.filter_sublist.map _).subset hin

theorem Touches.rooted (h : Touches collection written directory after)
    (hrooted : directory.Rooted) : after.Rooted := by
  induction h with
  | refl => exact hrooted
  | tail _ htouch ih => exact htouch.rooted ih

/-- The directory of a store stays rooted. -/
theorem rooted_after (store : FileStore) (hrooted : store.directory.Rooted)
    (calls : List StoreCall) : (backend.after store calls).directory.Rooted := by
  induction calls generalizing store with
  | nil => exact hrooted
  | cons call rest ih => exact ih _ ((answer_touches store call).rooted hrooted)

theorem rooted_empty : Directory.Rooted {} := ⟨nofun, nofun⟩

end FileStore

end DocumentDb
