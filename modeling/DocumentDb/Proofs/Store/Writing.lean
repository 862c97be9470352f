import DocumentDb.Proofs.Store.Footprints

/-!
# What writing leaves

However a store in files was used before: if the documents of a plain collection are written without
an error, its folder holds their shards, and the pattern of its shards finds nothing else
(`HasShards`), no matter how many they are. As long as all collections have plain names, files have
points in their names and folders do not (`Directory.Pointed`), and then no documents are refused
but those that cannot be packed.
-/

namespace DocumentDb

open FileStore

/-! ### Names with points -/

namespace Directory

/-- Each file of a directory is listed once. -/
def Once (directory : Directory) : Prop := (directory.files.map (·.1)).Nodup

/-- **Files are told from folders by a point in their names.** -/
structure Pointed (directory : Directory) : Prop where
  folders : ∀ path ∈ directory.folders, ∀ name ∈ path.getLast?, '.' ∉ name.toList
  files : ∀ path ∈ directory.files.map (·.1), ∀ name ∈ path.getLast?, '.' ∈ name.toList

variable {directory : Directory} {collection name : String}

theorem Pointed.isFolder_eq_false (h : directory.Pointed) (front : Path)
    (hname : '.' ∈ name.toList) : directory.isFolder (front ++ [name]) = false := by
  rw [isFolder, Bool.or_eq_false_iff]
  refine ⟨by simp, Bool.eq_false_iff.mpr fun hin => ?_⟩
  exact h.folders _ (List.contains_iff_mem.mp hin) name List.getLast?_concat hname

/-- No file is where the folder of a plain collection is. -/
theorem Pointed.file?_eq_none (h : directory.Pointed) (hplain : Plain collection) :
    directory.file? [collection] = none := by
  rw [← Option.not_isSome_iff_eq_none]
  intro hsome
  exact hplain '.' (h.files _ (mem_of_file? hsome) collection rfl) (by decide)

theorem once_empty : Once {} := List.nodup_nil

theorem pointed_empty : Pointed {} := ⟨nofun, nofun⟩

theorem once_putFile {path : Path} {text : String} (h : directory.Once) :
    Once { directory with files := putFile path text directory.files } := by
  unfold Once
  rw [map_putFile]
  split_ifs with hin
  · exact h
  · refine List.nodup_append.mpr ⟨h, List.pairwise_singleton _ _, ?_⟩
    rintro other hmem _ hsingle rfl
    exact hin (List.mem_singleton.mp hsingle ▸ hmem)

end Directory

theorem pointed_of_matching {name : String}
    (h : Wildcard.matchesName Wildcard.shardTokens name.toList) : '.' ∈ name.toList := by
  obtain ⟨middle, hmiddle⟩ := (Wildcard.matchesName_shardTokens _).mp h
  rw [hmiddle]
  simp

theorem pointed_fileName (index : Nat) : '.' ∈ (Shard.fileName index).toList := by
  rw [Shard.toList_fileName]
  simp

/-! ### Every call keeps them -/

namespace FileStore

section Touches
variable {collection : String} {written : String → String → Prop} {directory after : Directory}

theorem Touch.once (h : Touch collection written directory after) (honce : directory.Once) :
    after.Once := by
  cases h with
  | folder => exact honce
  | file => exact Directory.once_putFile honce
  | remove => exact (List.filter_sublist.map _).nodup honce

theorem Touches.once (h : Touches collection written directory after) (honce : directory.Once) :
    after.Once := by
  induction h with
  | refl => exact honce
  | tail _ htouch ih => exact htouch.once ih

theorem Touch.pointed (hplain : Plain collection)
    (hwritten : ∀ name text, written name text → '.' ∈ name.toList)
    (h : Touch collection written directory after) (hpointed : directory.Pointed) :
    after.Pointed := by
  cases h with
  | folder hpath =>
    refine ⟨fun path hin name hname => ?_, hpointed.files⟩
    rcases List.mem_append.mp hin with hin | hin
    · exact hpointed.folders path hin name hname
    · have hlast : name ∈ FileStore.folder collection := by
        rw [List.mem_singleton.mp hin] at hname
        exact hpath.subset (List.mem_of_getLast? hname)
      rw [folder_plain hplain] at hlast
      split_ifs at hlast with hempty
      · cases hlast
      · rw [List.mem_singleton.mp hlast]
        exact fun hpoint => hplain '.' hpoint (by decide)
  | file hfolder hnew =>
    refine ⟨hpointed.folders, fun path hin name hname => ?_⟩
    rw [Directory.map_putFile] at hin
    split_ifs at hin
    · exact hpointed.files path hin name hname
    · rcases List.mem_append.mp hin with hin | hin
      · exact hpointed.files path hin name hname
      · rw [List.mem_singleton.mp hin, List.getLast?_concat] at hname
        cases hname
        exact hwritten _ _ hnew
  | remove =>
    refine ⟨hpointed.folders, fun path hin => hpointed.files path ?_⟩
    exact (List.filter_sublist.map _).subset hin

theorem Touches.pointed (hplain : Plain collection)
    (hwritten : ∀ name text, written name text → '.' ∈ name.toList)
    (h : Touches collection written directory after) (hpointed : directory.Pointed) :
    after.Pointed := by
  induction h with
  | refl => exact hpointed
  | tail _ htouch ih => exact htouch.pointed hplain hwritten ih

end Touches

theorem Writes.pointed {store : FileStore} {call : StoreCall} {name text : String}
    (h : Writes store call name text) : '.' ∈ name.toList := by
  cases h with
  | shard => exact pointed_fileName _
  | counter => decide

section Calls
variable (store : FileStore)

theorem once_after (honce : store.directory.Once) (calls : List StoreCall) :
    (backend.after store calls).directory.Once := by
  induction calls generalizing store with
  | nil => exact honce
  | cons call rest ih => exact ih _ ((answer_touches store call).once honce)

theorem pointed_after (hpointed : store.directory.Pointed) {calls : List StoreCall}
    (hplain : ∀ call ∈ calls, Plain call.collection) :
    (backend.after store calls).directory.Pointed := by
  induction calls generalizing store with
  | nil => exact hpointed
  | cons call rest ih =>
    obtain ⟨hcall, hrest⟩ := List.forall_mem_cons.mp hplain
    exact ih _ ((answer_touches store call).pointed hcall (fun _ _ h => h.pointed) hpointed) hrest

end Calls

/-! ### Steps of writing -/

section Steps
variable {directory : Directory} {collection : String} {shardMax : Nat}

/-- The folder of a plain collection is made, unless a file is in its place. -/
theorem ensures_makeFolders_plain (hplain : Plain collection) :
    Ensures (Directory.makeFolders (folder collection)) directory
      (fun _ made => made.files = directory.files ∧ made.isFolder (folder collection) ∧
        (directory.Pointed → made.Pointed))
      (fun _ _ => ¬ directory.Pointed) := by
  have hfolder := folder_plain hplain
  split_ifs at hfolder with hempty
  · rw [hfolder]
    exact ⟨rfl, rfl, id⟩
  · rw [hfolder]
    simp only [Directory.makeFolders, Directory.makeFoldersFrom, ensures_bind, ensures_get,
      List.nil_append]
    by_cases hfile : (directory.file? [collection]).isSome
    · rw [if_pos hfile]
      intro hpointed
      rw [hpointed.file?_eq_none hplain] at hfile
      cases hfile
    · rw [if_neg hfile]
      split_ifs with hthere
      · have htouch : Touch collection (fun _ _ => False) directory
            { directory with folders := directory.folders ++ [[collection]] } :=
          .folder (hfolder ▸ List.prefix_rfl) rfl
        exact ⟨rfl, by simp [Directory.isFolder], htouch.pointed hplain fun _ _ h => h.elim⟩
      · exact ⟨rfl, by simpa using hthere, id⟩

/-- Shards are written under numbers that follow each other, unless a folder is in the place of one
of them. -/
theorem ensures_writeShards_places (hplain : Plain collection)
    (hfolder : directory.isFolder (folder collection)) (honce : directory.Once) {index : Nat}
    {shards : List (List String)} :
    Ensures (writeShards (folder collection) index shards) directory
      (fun _ filled => filled.folders = directory.folders ∧ filled.Once ∧
        (∀ i < shards.length, directory.isFolder (shardPath collection (index + i)) = false) ∧
        (∀ i < shards.length,
          filled.file? (shardPath collection (index + i)) = shards[i]?.map Shard.text) ∧
        (∀ i < index, filled.file? (shardPath collection i) =
          directory.file? (shardPath collection i)) ∧
        (directory.Pointed → filled.Pointed))
      (fun _ _ => ¬ directory.Pointed) := by
  induction shards generalizing directory index with
  | nil => exact ⟨rfl, honce, nofun, nofun, fun _ _ => rfl, id⟩
  | cons shard rest ih =>
    unfold writeShards Directory.writeFile
    simp only [ensures_bind, ensures_get, hfolder, Bool.true_and]
    split_ifs with hplace
    · generalize hmiddle : { directory with
        files := Directory.putFile (folder collection ++ [Shard.fileName index])
          (Shard.text shard) directory.files } = middle
      have htouch : Touch collection (fun name _ => '.' ∈ name.toList) directory middle :=
        hmiddle ▸ .file hfolder (pointed_fileName index)
      have hsame : middle.folders = directory.folders := hmiddle ▸ rfl
      have hwritten (i : Nat) : middle.file? (shardPath collection i) =
          if i = index then some (Shard.text shard)
          else directory.file? (shardPath collection i) := by
        rw [← hmiddle, Directory.file?, Directory.lookup_putFile, ← shardPath]
        simp only [shardPath_inj]
        rfl
      have hstill := htouch.pointed hplain fun _ _ h => h
      refine (ih (htouch.isFolder hfolder) (htouch.once honce)).mono ?_
        fun _ _ hfail hpointed => hfail (hstill hpointed)
      rintro - filled ⟨hfolders, hone, hfree, hshards, hothers, hlast⟩
      refine ⟨hfolders.trans hsame, hone, fun i hi => ?_, fun i hi => ?_, fun i hi => ?_,
        hlast ∘ hstill⟩
      · cases i with
        | zero => simpa [shardPath] using hplace
        | succ i =>
          rw [show index + (i + 1) = index + 1 + i by omega, Directory.isFolder, ← hsame]
          exact hfree i (by simpa using hi)
      · cases i with
        | zero => rw [Nat.add_zero, hothers index (by omega), hwritten, if_pos rfl]; rfl
        | succ i =>
          rw [show index + (i + 1) = index + 1 + i by omega]
          exact hshards i (by simpa using hi)
      · rw [hothers i (by omega), hwritten, if_neg (by omega)]
    · intro hpointed
      rw [hpointed.isFolder_eq_false _ (pointed_fileName index)] at hplace
      exact hplace rfl

/-- Files are removed if each of them is there and named once. -/
theorem ensures_removeFiles_iff {paths : List Path} :
    Ensures (removeFiles paths) directory
      (fun _ after => paths.Nodup ∧ (∀ path ∈ paths, (directory.file? path).isSome) ∧
        after.folders = directory.folders ∧ (directory.Once → after.Once) ∧
        ∀ path, after.file? path = if path ∈ paths then none else directory.file? path)
      (fun _ _ => ¬ (paths.Nodup ∧ ∀ path ∈ paths, (directory.file? path).isSome)) := by
  induction paths generalizing directory with
  | nil => exact ⟨List.nodup_nil, nofun, rfl, id, fun _ => rfl⟩
  | cons first rest ih =>
    unfold removeFiles Directory.removeFile
    simp only [ensures_bind, ensures_get]
    split_ifs with hfirst
    · generalize hmiddle : { directory with
        files := directory.files.filter (·.1 ≠ first) } = middle
      have hremoved (path : Path) : middle.file? path =
          if path = first then none else directory.file? path :=
        hmiddle ▸ Directory.lookup_filter _
      refine ih.mono ?_ fun _ _ hfail hall => hfail ?_
      · rintro - after ⟨hnodup, hthere, hfolders, honce, hgone⟩
        refine ⟨List.nodup_cons.mpr ⟨fun hin => ?_, hnodup⟩,
          List.forall_mem_cons.mpr ⟨hfirst, fun path hin => ?_⟩, hfolders.trans (hmiddle ▸ rfl),
          fun hone => honce (hmiddle ▸ (List.filter_sublist.map _).nodup hone), fun path => ?_⟩
        · have habsent := hthere first hin
          rw [hremoved, if_pos rfl] at habsent
          cases habsent
        · have hstill := hthere path hin
          rw [hremoved] at hstill
          split_ifs at hstill
          · cases hstill
          · exact hstill
        · rw [hgone, hremoved]
          by_cases heq : path = first <;> by_cases hin : path ∈ rest <;> simp [heq, hin]
      · obtain ⟨hnodup, hthere⟩ := hall
        obtain ⟨hnew, hnodup⟩ := List.nodup_cons.mp hnodup
        refine ⟨hnodup, fun path hin => ?_⟩
        rw [hremoved, if_neg (by rintro rfl; exact hnew hin)]
        exact hthere path (List.mem_cons_of_mem _ hin)
    · exact fun hall => hfirst (hall.2 first List.mem_cons_self)

end Steps

/-! ### Writing documents -/

/-- The files and folders that the pattern of the shards of a collection finds. -/
def found (directory : Directory) (collection : String) : List Path :=
  (directory.folders ++ directory.files.map (·.1)).filter
    (Wildcard.matchesPath (Wildcard.shardParts (folder collection)))

/-- **A directory has the shards of a collection**, and its pattern finds nothing else. -/
structure HasShards (directory : Directory) (collection : String) (shards : List (List String)) :
    Prop where
  folder : directory.isFolder (folder collection)
  files : ∀ index < shards.length,
    directory.file? (shardPath collection index) = shards[index]?.map Shard.text
  found : (found directory collection).Perm (firstShards collection shards.length)

section Writing
variable {directory : Directory} {collection : String} {shardMax : Nat} {path : Path}

theorem shardPaths_plain (hplain : Plain collection)
    (hfolder : directory.isFolder (folder collection)) :
    shardPaths directory collection = .ok ((found directory collection).mergeSort
      Wildcard.pathBefore) := by
  unfold shardPaths
  dsimp only
  rw [if_pos (by rw [Directory.contains, hfolder, Bool.true_or]),
    Wildcard.find_literal (Wildcard.literal_of_plain hplain)]
  rfl

theorem mem_found : path ∈ found directory collection ↔
    (path ∈ directory.folders ∨ path ∈ directory.files.map (·.1)) ∧
      ∃ name, path = folder collection ++ [name] ∧
        Wildcard.matchesName Wildcard.shardTokens name.toList := by
  rw [found, List.mem_filter, List.mem_append, Wildcard.matchesPath_shardParts]

/-- If no folder is found, what is found are files, each of them once. -/
theorem nodup_found (honce : directory.Once)
    (hfolders : ∀ path ∈ directory.folders, path ∉ found directory collection) :
    (found directory collection).Nodup := by
  unfold found at hfolders ⊢
  rw [List.filter_append, List.filter_eq_nil_iff.mpr, List.nil_append]
  · exact honce.filter _
  · intro path hin hmatches
    exact hfolders path hin (List.mem_filter.mpr ⟨List.mem_append_left _ hin, hmatches⟩)

theorem file_of_mem_found (h : path ∈ found directory collection)
    (hfolders : ∀ path ∈ directory.folders, path ∉ found directory collection) :
    (directory.file? path).isSome :=
  Directory.file?_of_mem ((mem_found.mp h).1.resolve_left fun hin => hfolders path hin h)

/-- What is found is named like one of the first shards just if it is one of them. -/
theorem isAmongFirst_of_mem_found {count : Nat} (h : path ∈ found directory collection) :
    isAmongFirst count path = true ↔ path ∈ firstShards collection count := by
  obtain ⟨-, name, rfl, -⟩ := mem_found.mp h
  rw [mem_firstShards, isAmongFirst, List.any_eq_true]
  simp only [List.mem_range, List.getLast?_concat, beq_iff_eq, Option.some.injEq, shardPath,
    List.append_cancel_left_eq, List.cons.injEq, and_true]

/-- In a directory with pointed names no folder is found. -/
theorem not_found_of_pointed (h : directory.Pointed) (collection : String) :
    ∀ path ∈ directory.folders, path ∉ found directory collection := by
  intro path hin hfound
  obtain ⟨-, name, rfl, hname⟩ := mem_found.mp hfound
  exact h.folders _ hin name List.getLast?_concat (pointed_of_matching hname)

/-- What is found beyond the first shards. -/
def foundBeyond (directory : Directory) (collection : String) (count : Nat) : List Path :=
  (found directory collection).filter (!isAmongFirst count ·)

theorem mem_foundBeyond {count : Nat} : path ∈ foundBeyond directory collection count ↔
    path ∈ found directory collection ∧ path ∉ firstShards collection count := by
  rw [foundBeyond, List.mem_filter]
  refine and_congr_right fun hfound => ?_
  rw [← isAmongFirst_of_mem_found hfound, Bool.not_eq_true', Bool.not_eq_true]

/-- No folder is found where what is found beyond the first shards can be removed, each path once,
and no folder is in the place of one of these: it would be found as a folder and as a file. -/
theorem not_found_of_removable {count : Nat}
    (hfree : ∀ index < count, directory.isFolder (shardPath collection index) = false)
    (hnodup : (foundBeyond directory collection count).Nodup)
    (hfiles : ∀ path ∈ foundBeyond directory collection count, (directory.file? path).isSome) :
    ∀ path ∈ directory.folders, path ∉ found directory collection := by
  intro path hin hfound
  by_cases hfirst : path ∈ firstShards collection count
  · obtain ⟨index, hindex, rfl⟩ := mem_firstShards.mp hfirst
    have hno := (Bool.or_eq_false_iff.mp (hfree index hindex)).2
    rw [List.contains_iff_mem.mpr hin] at hno
    cases hno
  · have hbeyond := mem_foundBeyond.mpr ⟨hfound, hfirst⟩
    have hfile := Directory.mem_of_file? (hfiles path hbeyond)
    obtain ⟨hmatches, hbehind⟩ : Wildcard.matchesPath (Wildcard.shardParts (folder collection)) path
        ∧ (!isAmongFirst count path) = true :=
      ⟨(List.mem_filter.mp hfound).2, (List.mem_filter.mp hbeyond).2⟩
    rw [foundBeyond, found, List.filter_append, List.filter_append] at hnodup
    exact (List.nodup_append.mp hnodup).2.2 path
      (List.mem_filter.mpr ⟨List.mem_filter.mpr ⟨hin, hmatches⟩, hbehind⟩) path
      (List.mem_filter.mpr ⟨List.mem_filter.mpr ⟨hfile, hmatches⟩, hbehind⟩) rfl

/-- **What is left of the files that are found**, when those beyond the first shards are removed,
are the first shards. -/
theorem hasShards_of_removed {filled after : Directory} {shards : List (List String)}
    (hfolder : filled.isFolder (folder collection))
    (hfree : ∀ index < shards.length, filled.isFolder (shardPath collection index) = false)
    (hshards : ∀ index < shards.length,
      filled.file? (shardPath collection index) = shards[index]?.map Shard.text)
    {beyond : List Path} (hbeyond : beyond.Perm (foundBeyond filled collection shards.length))
    (hnodup : beyond.Nodup) (hremoved : ∀ path ∈ beyond, (filled.file? path).isSome)
    (hleft : after.folders = filled.folders) (hone : after.Once)
    (hgone : ∀ path, after.file? path = if path ∈ beyond then none else filled.file? path) :
    HasShards after collection shards := by
  have hmem (path : Path) : path ∈ beyond ↔
      path ∈ found filled collection ∧ path ∉ firstShards collection shards.length :=
    hbeyond.mem_iff.trans mem_foundBeyond
  have hkept : ∀ index < shards.length,
      after.file? (shardPath collection index) = shards[index]?.map Shard.text := by
    intro index hindex
    rw [hgone, if_neg fun hin => ((hmem _).mp hin).2 (mem_firstShards_iff.mpr hindex),
      hshards index hindex]
  have hnone : ∀ path ∈ after.folders, path ∉ found after collection := by
    intro path hin hfound
    rw [hleft] at hin
    exact not_found_of_removable hfree (hbeyond.nodup_iff.mp hnodup)
      (fun path hin => hremoved path (hbeyond.mem_iff.mpr hin)) path hin
      (mem_found.mpr ⟨.inl hin, (mem_found.mp hfound).2⟩)
  refine ⟨by rwa [Directory.isFolder, hleft], hkept, ?_⟩
  refine (List.perm_ext_iff_of_nodup (nodup_found hone hnone) (nodup_firstShards _ _)).mpr
    fun path => ⟨fun hfound => ?_, fun hfirst => ?_⟩
  · have hfile := file_of_mem_found hfound hnone
    rw [hgone] at hfile
    split_ifs at hfile with hin
    · cases hfile
    · by_contra hnot
      refine hin ((hmem path).mpr ⟨mem_found.mpr ⟨.inr ?_, (mem_found.mp hfound).2⟩, hnot⟩)
      exact Directory.mem_of_file? hfile
  · obtain ⟨index, hindex, rfl⟩ := mem_firstShards.mp hfirst
    refine mem_found.mpr ⟨.inr (Directory.mem_of_file? ?_), Shard.fileName index, rfl, ?_⟩
    · rw [hkept index hindex, List.getElem?_eq_getElem hindex]
      rfl
    · rw [Wildcard.matchesName_shardTokens, Shard.toList_fileName]
      exact ⟨_, rfl⟩

/-- **Writing the documents of a plain collection leaves their shards and no others**, however many
they are. -/
theorem ensures_writeDocuments_shards (hplain : Plain collection) (honce : directory.Once)
    {documents : List Document} :
    Ensures (writeDocuments shardMax collection documents) directory
      (fun _ after => ∃ shards, Shard.pack shardMax (documents.map Object.text) = .ok shards ∧
        HasShards after collection shards)
      (fun e _ => directory.Pointed →
        Shard.pack shardMax (documents.map Object.text) = .error e) := by
  refine ((ensures_makeFolders_plain hplain).mono (fun _ _ => id)
    fun _ _ hfail hpointed => absurd hpointed hfail).bind ?_
  rintro - made ⟨hfiles, hfolder, hstill⟩
  rcases hpack : Shard.pack shardMax (documents.map Object.text) with e | shards
  · exact ensures_bind.mpr (ensures_lookAt_error rfl fun _ => rfl)
  refine ensures_bind.mpr (ensures_lookAt rfl ?_)
  have hmade : made.Once := by rwa [Directory.Once, hfiles]
  refine ((ensures_writeShards_places hplain hfolder hmade).mono (fun _ _ => id)
    fun _ _ hfail hpointed => absurd (hstill hpointed) hfail).bind ?_
  rintro - filled ⟨hfolders, hone, hfree, hshards, -, hlast⟩
  simp only [Nat.zero_add] at hfree hshards
  have hthere : filled.isFolder (folder collection) := by
    rwa [Directory.isFolder, hfolders]
  have hperm := List.mergeSort_perm (found filled collection) Wildcard.pathBefore
  refine ensures_bind.mpr (ensures_lookAt (shardPaths_plain hplain hthere) ?_)
  refine ensures_removeFiles_iff.mono ?_ fun _ _ hfail hpointed => absurd ⟨?_, ?_⟩ hfail
  · rintro - after ⟨hnodup, hremoved, hleft, hstay, hgone⟩
    refine ⟨shards, rfl, hasShards_of_removed hthere (fun index hindex => ?_) hshards
      (hperm.filter _) hnodup hremoved hleft (hstay hone) hgone⟩
    rw [Directory.isFolder, hfolders]
    exact hfree index hindex
  · have hnone := not_found_of_pointed (hlast (hstill hpointed)) collection
    exact (hperm.nodup_iff.mpr (nodup_found hone hnone)).filter _
  · have hnone := not_found_of_pointed (hlast (hstill hpointed)) collection
    intro path hin
    exact file_of_mem_found (hperm.mem_iff.mp (List.mem_filter.mp hin).1) hnone

end Writing

end FileStore

end DocumentDb
