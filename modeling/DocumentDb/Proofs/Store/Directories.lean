import DocumentDb.Proofs.Store.Patterns

/-!
# Directories of stores

In the directory of a store that was used for plain collections only, every file is the counter or a
shard of one of them and lies in its folder. Writing and removing such files keeps this, and leaves
all other files alone. So the shards that are found for a collection are exactly those written for
it, in the order of their numbers, and writing its documents leaves their shards and no others.
-/

namespace DocumentDb

namespace FileStore

/-- The path of a shard of a collection. -/
def shardPath (collection : String) (index : Nat) : Path :=
  folder collection ++ [Shard.fileName index]

/-- The path of the counter of a collection. -/
def counterPath (collection : String) : Path := folder collection ++ [Counter.fileName]

/-- The paths of the files of a collection. -/
inductive StoredAt (collection : String) : Path → Prop
  | counter : StoredAt collection (counterPath collection)
  | shard {index : Nat} (h : index < Shard.countMax) :
    StoredAt collection (shardPath collection index)

theorem eq_of_singleton {first last : String} {front : Path} (h : [first] = front ++ [last]) :
    first = last := by
  simpa using congrArg List.getLast? h

theorem StoredAt.exists_name {collection : String} {path : Path} (h : StoredAt collection path) :
    ∃ name : String, path = folder collection ++ [name] ∧ '.' ∈ name.toList := by
  cases h with
  | counter => exact ⟨_, rfl, by decide⟩
  | shard => exact ⟨_, rfl, by rw [Shard.toList_fileName]; simp⟩

/-- A name with a point does not end the folder of a plain collection. -/
theorem folder_ne {collection name : String} {front : Path} (h : Plain collection)
    (hname : '.' ∈ name.toList) : folder collection ≠ front ++ [name] := by
  intro heq
  rw [folder_plain h] at heq
  split_ifs at heq with hempty
  · cases (List.append_eq_nil_iff.mp heq.symm).2
  · rw [eq_of_singleton heq] at h
    exact h '.' hname (by decide)

theorem shardPath_inj {collection : String} {i j : Nat} :
    shardPath collection i = shardPath collection j ↔ i = j :=
  ⟨fun h => Shard.fileName_inj (List.append_singleton_inj.mp h).2, fun h => by rw [h]⟩

theorem shardPath_ne_counterPath {collection other : String} {index : Nat} :
    shardPath collection index ≠ counterPath other := by
  intro h
  have hlist := congrArg String.toList (List.append_singleton_inj.mp h).2
  rw [Shard.toList_fileName] at hlist
  cases hlist

/-- Plain collections have folders of their own. -/
theorem folder_inj {collection other : String} (h : Plain collection) (hother : Plain other)
    (hfolder : folder collection = folder other) : collection = other := by
  rw [folder_plain h, folder_plain hother] at hfolder
  split_ifs at hfolder with hempty hempty'
  · rw [hempty, hempty']
  · exact (List.cons.inj hfolder).1

end FileStore

/-! ### Files by their paths -/

namespace Directory
variable {directory : Directory} {path other : Path} {content : String}

theorem mem_of_file? (h : (directory.file? path).isSome) :
    path ∈ directory.files.map (·.1) := by
  obtain ⟨file, hin, hpath⟩ := List.lookup_isSome_iff.mp h
  exact List.mem_map.mpr ⟨file, hin, (eq_of_beq hpath).symm⟩

theorem file?_of_mem (h : path ∈ directory.files.map (·.1)) : (directory.file? path).isSome := by
  obtain ⟨file, hin, rfl⟩ := List.mem_map.mp h
  exact List.lookup_isSome_iff.mpr ⟨file, hin, beq_self_eq_true _⟩

theorem file?_of_files_eq {after : Directory} (h : after.files = directory.files) (path : Path) :
    after.file? path = directory.file? path := by
  rw [file?, h, file?]

theorem lookup_file (file : Path × String) (rest : List (Path × String)) :
    (file :: rest).lookup other = if other = file.1 then some file.2 else rest.lookup other := by
  rw [List.lookup_cons]
  by_cases heq : other = file.1
  · simp [heq]
  · simp [heq, beq_eq_false_iff_ne.mpr heq]

theorem lookup_putFile (files : List (Path × String)) :
    (putFile path content files).lookup other =
      if other = path then some content else files.lookup other := by
  induction files with
  | nil => exact lookup_file _ _
  | cons file rest ih =>
    by_cases heq : file.1 = path
    · by_cases hother : other = path <;> simp [putFile, lookup_file, heq, hother]
    · by_cases hother : other = file.1
      · simp [putFile, lookup_file, heq, hother]
      · simp [putFile, lookup_file, heq, hother, ih]

theorem map_putFile (files : List (Path × String)) :
    (putFile path content files).map (·.1) =
      if path ∈ files.map (·.1) then files.map (·.1) else files.map (·.1) ++ [path] := by
  induction files with
  | nil => rfl
  | cons file rest ih =>
    by_cases heq : file.1 = path
    · simp [putFile, heq]
    · have hne : ¬ path = file.1 := fun h => heq h.symm
      by_cases hin : path ∈ rest.map (·.1)
      · simp only [putFile, heq, if_false, List.map_cons, ih, hin, if_true, List.mem_cons, or_true]
      · simp only [putFile, heq, if_false, List.map_cons, ih, hin, List.mem_cons, hne, or_self,
          List.cons_append]

theorem lookup_filter (files : List (Path × String)) :
    (files.filter (·.1 ≠ path)).lookup other =
      if other = path then none else files.lookup other := by
  induction files with
  | nil => simp
  | cons file rest ih =>
    by_cases heq : file.1 = path
    · rw [List.filter_cons_of_neg (by simp [heq]), ih, lookup_file, heq]
      by_cases hother : other = path
      · rw [if_pos hother, if_pos hother]
      · rw [if_neg hother, if_neg hother, if_neg hother]
    · rw [List.filter_cons_of_pos (by simp [heq]), lookup_file, ih, lookup_file]
      by_cases hother : other = file.1
      · rw [if_pos hother, if_pos hother, if_neg (by rw [hother]; exact heq)]
      · rw [if_neg hother, if_neg hother]

/-! ### Tidy directories -/

/-- **A directory is tidy** if it holds nothing but counters and shards of plain collections, each
file once, in the folders of these collections. -/
structure Tidy (directory : Directory) : Prop where
  folders : ∀ path ∈ directory.folders, ∃ collection, Plain collection ∧ path = [collection]
  files : ∀ path ∈ directory.files.map (·.1), ∃ collection, Plain collection ∧
    directory.isFolder (FileStore.folder collection) ∧ FileStore.StoredAt collection path
  once : (directory.files.map (·.1)).Nodup

theorem tidy_empty : Tidy {} where
  folders := nofun
  files := nofun
  once := List.nodup_nil

/-! ### Steps on tidy directories -/

section Steps
open FileStore
variable {collection name : String} {index : Nat}

/-- A name with a point is no folder of a tidy directory. -/
theorem Tidy.isFolder_eq_false (h : directory.Tidy) {folder : Path} (hname : '.' ∈ name.toList) :
    directory.isFolder (folder ++ [name]) = false := by
  rw [isFolder, Bool.or_eq_false_iff]
  refine ⟨by simp, ?_⟩
  rw [← Bool.not_eq_true, List.contains_iff_mem]
  intro hin
  obtain ⟨collection, hplain, heq⟩ := h.folders _ hin
  rw [← eq_of_singleton heq.symm] at hname
  exact hplain '.' hname (by decide)

/-- No file of a tidy directory is where the folder of a plain collection is. -/
theorem Tidy.file?_folder (h : directory.Tidy) (hplain : Plain collection) :
    directory.file? (folder collection) = none := by
  rw [← Option.not_isSome_iff_eq_none]
  intro hsome
  obtain ⟨other, _, _, hstored⟩ := h.files _ (mem_of_file? hsome)
  obtain ⟨name, heq, hname⟩ := hstored.exists_name
  exact folder_ne hplain hname heq

/-- A folder for a plain collection is made without a change of any file. -/
theorem ensures_makeFolders (h : directory.Tidy) (hplain : Plain collection) :
    Ensures (makeFolders (folder collection)) directory
      (fun _ after => after.Tidy ∧ after.isFolder (folder collection) ∧
        after.files = directory.files)
      (fun _ _ => False) := by
  have hnone := h.file?_folder hplain
  rw [folder_plain hplain] at hnone ⊢
  split_ifs with hempty
  · exact ⟨h, rfl, rfl⟩
  · rw [if_neg hempty] at hnone
    simp only [makeFolders, makeFoldersFrom, ensures_bind, ensures_get, List.nil_append, hnone,
      Option.isSome_none, Bool.false_eq_true, if_false]
    split_ifs with hfolder
    · refine ⟨⟨?_, ?_, h.once⟩, by simp [isFolder], rfl⟩
      · intro path hin
        rcases List.mem_append.mp hin with hin | hin
        · exact h.folders path hin
        · exact ⟨collection, hplain, List.mem_singleton.mp hin⟩
      · intro path hin
        obtain ⟨other, hother, hthere, hstored⟩ := h.files path hin
        refine ⟨other, hother, ?_, hstored⟩
        simp only [isFolder, List.contains_append, Bool.or_eq_true] at hthere ⊢
        exact hthere.imp_right Or.inl
    · exact ⟨h, by simpa using hfolder, rfl⟩

/-- A file of a collection is written into its folder. -/
theorem ensures_writeFile (h : directory.Tidy) (hplain : Plain collection)
    (hfolder : directory.isFolder (folder collection))
    (hpath : StoredAt collection (folder collection ++ [name])) :
    Ensures (writeFile (folder collection) name content) directory
      (fun _ after => after.Tidy ∧ after.folders = directory.folders ∧
        ∀ path, after.file? path =
          if path = folder collection ++ [name] then some content else directory.file? path)
      (fun _ _ => False) := by
  have hpoint : '.' ∈ name.toList := by
    obtain ⟨other, heq, hpoint⟩ := hpath.exists_name
    rwa [(List.append_singleton_inj.mp heq).2]
  simp only [writeFile, ensures_bind, ensures_get, hfolder, h.isFolder_eq_false hpoint,
    Bool.not_false, Bool.and_self, if_true]
  refine ⟨⟨h.folders, ?_, ?_⟩, rfl, fun path => lookup_putFile _⟩
  · intro path hin
    rw [map_putFile] at hin
    split_ifs at hin
    · exact h.files path hin
    · rcases List.mem_append.mp hin with hin | hin
      · exact h.files path hin
      · exact ⟨collection, hplain, hfolder, (List.mem_singleton.mp hin) ▸ hpath⟩
  · rw [map_putFile]
    split_ifs with hin
    · exact h.once
    · exact List.nodup_append.mpr ⟨h.once, List.pairwise_singleton _ _, by
        rintro path hmem _ hsingle rfl
        exact hin (List.mem_singleton.mp hsingle ▸ hmem)⟩

/-- A file is removed. -/
theorem ensures_removeFile (h : directory.Tidy) (hpath : (directory.file? path).isSome) :
    Ensures (removeFile path) directory
      (fun _ after => after.Tidy ∧ after.folders = directory.folders ∧
        ∀ other, after.file? other = if other = path then none else directory.file? other)
      (fun _ _ => False) := by
  simp only [removeFile, ensures_bind, ensures_get, hpath, if_true]
  refine ⟨⟨h.folders, ?_, ?_⟩, rfl, fun other => lookup_filter _⟩
  · intro other hin
    obtain ⟨file, hmem, rfl⟩ := List.mem_map.mp hin
    exact h.files _ (List.mem_map_of_mem (List.mem_filter.mp hmem).1)
  · exact (List.filter_sublist.map _).nodup h.once

end Steps

end Directory

namespace FileStore
variable {directory : Directory} {collection : String} {shardMax : Nat}

/-! ### Finding shards -/

/-- The first shards of a collection. -/
def firstShards (collection : String) (count : Nat) : List Path :=
  (List.range count).map (shardPath collection)

theorem isSome_shard_iff {shards : List (List String)}
    (h : ∀ index, directory.file? (shardPath collection index) = shards[index]?.map Shard.text)
    (index : Nat) :
    (directory.file? (shardPath collection index)).isSome ↔ index < shards.length := by
  rw [h, Option.isSome_map]
  simp

theorem mem_firstShards {count : Nat} {path : Path} :
    path ∈ firstShards collection count ↔ ∃ index < count, path = shardPath collection index := by
  simp only [firstShards, List.mem_map, List.mem_range, eq_comm]

theorem mem_firstShards_iff {count index : Nat} :
    shardPath collection index ∈ firstShards collection count ↔ index < count := by
  rw [mem_firstShards]
  exact ⟨fun ⟨_, hlt, heq⟩ => shardPath_inj.mp heq ▸ hlt, fun hlt => ⟨index, hlt, rfl⟩⟩

theorem nodup_firstShards (collection : String) (count : Nat) :
    (firstShards collection count).Nodup :=
  List.pairwise_map.mpr (List.nodup_range.imp fun hne heq => hne (shardPath_inj.mp heq))

theorem pairwise_firstShards {count : Nat} (hcount : count ≤ Shard.countMax) :
    (firstShards collection count).Pairwise fun a b => Wildcard.pathBefore a b := by
  refine List.pairwise_map.mpr ?_
  refine List.pairwise_lt_range.imp_of_mem fun {i j} _ hj hlt => ?_
  have hname := Shard.fileName_lt hlt (Nat.lt_of_lt_of_le (List.mem_range.mp hj) hcount)
  rw [shardPath, shardPath, Wildcard.pathBefore_append]
  simp [Wildcard.pathBefore, hname.ne, hname.le]

section Matching
variable {path : Path} {name : String} {count : Nat}

/-- No folder of a tidy directory has the name of a shard. -/
theorem not_folder_of_matching (h : directory.Tidy) (hpath : path = folder collection ++ [name])
    (hname : Wildcard.matchesName Wildcard.shardTokens name.toList) :
    path ∉ directory.folders := by
  obtain ⟨middle, hmiddle⟩ := (Wildcard.matchesName_shardTokens _).mp hname
  intro hin
  obtain ⟨other, hother, rfl⟩ := h.folders path hin
  rw [eq_of_singleton hpath] at hother
  exact hother '.' (by rw [hmiddle]; simp) (by decide)

/-- The files of a tidy directory that match the pattern of the shards of a collection are its
shards. -/
theorem mem_firstShards_of_matching (h : directory.Tidy)
    (hshards : ∀ index, (directory.file? (shardPath collection index)).isSome ↔ index < count)
    (hfile : path ∈ directory.files.map (·.1)) (hpath : path = folder collection ++ [name])
    (hname : Wildcard.matchesName Wildcard.shardTokens name.toList) :
    path ∈ firstShards collection count := by
  obtain ⟨other, -, -, hstored⟩ := h.files path hfile
  cases hstored with
  | counter =>
    obtain ⟨middle, hmiddle⟩ := (Wildcard.matchesName_shardTokens _).mp hname
    rw [← (List.append_singleton_inj.mp hpath).2] at hmiddle
    cases hmiddle
  | @shard index hindex =>
    have heq : shardPath other index = shardPath collection index := by
      rw [shardPath, (List.append_singleton_inj.mp hpath).1, shardPath]
    refine mem_firstShards.mpr ⟨index, (hshards index).mp ?_, heq⟩
    rw [← heq]
    exact Directory.file?_of_mem hfile

end Matching

/-- **The shards of a collection are found in the order of their numbers.** -/
theorem shardPaths_eq (h : directory.Tidy) (hplain : Plain collection) {count : Nat}
    (hcount : count ≤ Shard.countMax)
    (hshards : ∀ index, (directory.file? (shardPath collection index)).isSome ↔ index < count) :
    shardPaths directory collection = .ok (firstShards collection count) := by
  have hfind := Wildcard.find_literal (Wildcard.literal_of_plain hplain) directory
  have hmatches := Wildcard.matchesPath_shardParts (folder collection)
  have hfolders : directory.folders.filter
      (Wildcard.matchesPath (Wildcard.shardParts (folder collection))) = [] := by
    refine List.filter_eq_nil_iff.mpr fun path hin hmatch => ?_
    obtain ⟨name, hpath, hname⟩ := (hmatches path).mp hmatch
    exact not_folder_of_matching h hpath hname hin
  have hperm : ((directory.folders ++ directory.files.map (·.1)).filter
      (Wildcard.matchesPath (Wildcard.shardParts (folder collection)))).Perm
        (firstShards collection count) := by
    rw [List.filter_append, hfolders, List.nil_append]
    refine (List.perm_ext_iff_of_nodup (h.once.filter _) (nodup_firstShards _ _)).mpr fun path => ?_
    rw [List.mem_filter, hmatches]
    constructor
    · rintro ⟨hfile, name, hpath, hname⟩
      exact mem_firstShards_of_matching h hshards hfile hpath hname
    · intro hin
      obtain ⟨index, hindex, rfl⟩ := mem_firstShards.mp hin
      refine ⟨Directory.mem_of_file? ((hshards index).mpr hindex), Shard.fileName index, rfl, ?_⟩
      rw [Wildcard.matchesName_shardTokens, Shard.toList_fileName]
      exact ⟨_, rfl⟩
  unfold shardPaths
  dsimp only
  split_ifs with hcontains
  · rw [hfind, Wildcard.mergeSort_pathBefore hperm (pairwise_firstShards hcount)]
  · -- without the folder there is no shard either
    have hnone : ¬ 0 < count := by
      intro hpos
      have hfirst := Directory.mem_of_file? ((hshards 0).mpr hpos)
      obtain ⟨other, -, hfolder, hstored⟩ := h.files _ hfirst
      obtain ⟨name, hpath, -⟩ := hstored.exists_name
      rw [← (List.append_singleton_inj.mp hpath).1] at hfolder
      exact hcontains (by rw [Directory.contains, hfolder, Bool.true_or])
    rw [Nat.eq_zero_of_not_pos hnone]
    rfl

/-! ### Writing shards -/

/-- Shards are written under numbers that follow each other, and no other file changes. -/
theorem ensures_writeShards (h : directory.Tidy) (hplain : Plain collection)
    (hfolder : directory.isFolder (folder collection)) {index : Nat} {shards : List (List String)}
    (hcount : index + shards.length ≤ Shard.countMax) :
    Ensures (writeShards (folder collection) index shards) directory
      (fun _ after => after.Tidy ∧
        (∀ i, after.file? (shardPath collection (index + i)) =
          (shards[i]?.map Shard.text).or (directory.file? (shardPath collection (index + i)))) ∧
        ∀ path, (∀ i, path ≠ shardPath collection (index + i)) →
          after.file? path = directory.file? path)
      (fun _ _ => False) := by
  induction shards generalizing directory index with
  | nil => exact ⟨h, fun i => rfl, fun path _ => rfl⟩
  | cons shard rest ih =>
    rw [List.length_cons] at hcount
    refine (Directory.ensures_writeFile h hplain hfolder (.shard (by omega))).bind ?_
    rintro - middle ⟨htidy, hfolders, hwritten⟩
    rw [Directory.isFolder, ← hfolders, ← Directory.isFolder] at hfolder
    refine (ih htidy hfolder (by omega)).mono ?_ fun _ _ => id
    rintro - after ⟨hafter, hshards, hothers⟩
    refine ⟨hafter, fun i => ?_, fun path hpath => ?_⟩
    · cases i with
      | zero =>
        rw [hothers _ (fun i heq => by have := shardPath_inj.mp heq; omega), hwritten, Nat.add_zero]
        exact if_pos rfl
      | succ i =>
        have hne : shardPath collection (index + 1 + i) ≠ shardPath collection index :=
          fun heq => by have := shardPath_inj.mp heq; omega
        rw [show index + (i + 1) = index + 1 + i by omega, hshards i, hwritten]
        rw [shardPath, shardPath] at hne
        rw [shardPath, if_neg hne]
        rfl
    · rw [hothers path fun i => by rw [Nat.add_right_comm]; exact hpath (i + 1), hwritten]
      exact if_neg (hpath 0)

/-- Files that are there are removed, and no other file changes. -/
theorem ensures_removeFiles (h : directory.Tidy) {paths : List Path} (hnodup : paths.Nodup)
    (hpaths : ∀ path ∈ paths, (directory.file? path).isSome) :
    Ensures (removeFiles paths) directory
      (fun _ after => after.Tidy ∧
        ∀ path, after.file? path = if path ∈ paths then none else directory.file? path)
      (fun _ _ => False) := by
  induction paths generalizing directory with
  | nil => exact ⟨h, fun path => by simp⟩
  | cons first rest ih =>
    obtain ⟨hfirst, hrest⟩ := List.forall_mem_cons.mp hpaths
    obtain ⟨hnew, hnodup⟩ := List.nodup_cons.mp hnodup
    refine (Directory.ensures_removeFile h hfirst).bind ?_
    rintro - middle ⟨htidy, -, hremoved⟩
    refine (ih htidy hnodup fun path hin => ?_).mono ?_ fun _ _ => id
    · rw [hremoved, if_neg (by rintro rfl; exact hnew hin)]
      exact hrest path hin
    · rintro - after ⟨hafter, hgone⟩
      refine ⟨hafter, fun path => ?_⟩
      rw [hgone, hremoved]
      by_cases heq : path = first <;> by_cases hin : path ∈ rest <;> simp [heq, hin]

theorem isAmongFirst_shardPath {count index : Nat} :
    isAmongFirst count (shardPath collection index) = decide (index < count) := by
  rw [isAmongFirst, Bool.eq_iff_iff, List.any_eq_true, decide_eq_true_eq]
  simp only [shardPath, List.getLast?_concat, beq_iff_eq, Option.some.injEq, List.mem_range]
  constructor
  · rintro ⟨other, hother, heq⟩
    rwa [Shard.fileName_inj heq]
  · intro hlt
    exact ⟨index, hlt, rfl⟩

/-- Shards beyond a number are removed, and no other file changes. -/
theorem ensures_removeBeyond (h : directory.Tidy) {count total : Nat}
    (hpresent : ∀ index, (directory.file? (shardPath collection index)).isSome ↔ index < total) :
    Ensures (removeFiles ((firstShards collection total).filter (!isAmongFirst count ·))) directory
      (fun _ after => after.Tidy ∧
        (∀ index, after.file? (shardPath collection index) =
          if index < count then directory.file? (shardPath collection index) else none) ∧
        ∀ path, (∀ index, path ≠ shardPath collection index) →
          after.file? path = directory.file? path)
      (fun _ _ => False) := by
  refine (ensures_removeFiles h ((nodup_firstShards _ _).filter _) fun path hin => ?_).mono ?_
    fun _ _ => id
  · obtain ⟨index, hindex, rfl⟩ := mem_firstShards.mp (List.mem_filter.mp hin).1
    exact (hpresent index).mpr hindex
  · rintro - after ⟨hafter, hgone⟩
    refine ⟨hafter, fun index => ?_, fun path hpath => ?_⟩
    · simp only [hgone, List.mem_filter, mem_firstShards_iff, isAmongFirst_shardPath]
      by_cases hkept : index < count
      · rw [if_neg (by simp [hkept]), if_pos hkept]
      · rw [if_neg hkept]
        split_ifs with hremoved
        · rfl
        · -- what is not removed though it is beyond the number was not there
          have habsent : ¬ (directory.file? (shardPath collection index)).isSome := fun hthere =>
            hremoved ⟨(hpresent index).mp hthere, by simp [hkept]⟩
          exact Option.not_isSome_iff_eq_none.mp habsent
    · rw [hgone, if_neg]
      intro hin
      obtain ⟨index, -, heq⟩ := mem_firstShards.mp (List.mem_filter.mp hin).1
      exact hpath index heq

theorem ensures_lookAt {α : Type} {f : Directory → Except Error α} {a : α}
    {done : α → Directory → Prop} {failed : Error → Directory → Prop} (hf : f directory = .ok a)
    (hdone : done a directory) : Ensures (lookAt f) directory done failed := by
  simp only [lookAt, ensures_bind, ensures_get]
  rw [hf]
  exact hdone

theorem ensures_lookAt_error {α : Type} {f : Directory → Except Error α} {e : Error}
    {done : α → Directory → Prop} {failed : Error → Directory → Prop} (hf : f directory = .error e)
    (hfailed : failed e directory) : Ensures (lookAt f) directory done failed := by
  simp only [lookAt, ensures_bind, ensures_get]
  rw [hf]
  exact hfailed

/-- **Writing the documents of a collection leaves their shards and no others**, and no other file
changes. It fails if and only if packing fails, and then no file changes. -/
theorem ensures_writeDocuments (h : directory.Tidy) (hplain : Plain collection) {count : Nat}
    (hcount : count ≤ Shard.countMax)
    (hstored : ∀ index, (directory.file? (shardPath collection index)).isSome ↔ index < count)
    {documents : List Document}
    (hneeds : ∀ shards, Shard.pack shardMax (documents.map Object.text) = .ok shards →
      shards.length ≤ Shard.countMax) :
    Ensures (writeDocuments shardMax collection documents) directory
      (fun _ after => after.Tidy ∧
        (∃ shards, Shard.pack shardMax (documents.map Object.text) = .ok shards ∧
          ∀ index, after.file? (shardPath collection index) = shards[index]?.map Shard.text) ∧
        ∀ path, (∀ index, path ≠ shardPath collection index) →
          after.file? path = directory.file? path)
      (fun e after => Shard.pack shardMax (documents.map Object.text) = .error e ∧ after.Tidy ∧
        after.files = directory.files) := by
  refine ((Directory.ensures_makeFolders h hplain).mono (fun _ _ => id)
    fun _ _ => False.elim).bind ?_
  rintro - made ⟨hmade, hfolder, hfiles⟩
  rcases hpack : Shard.pack shardMax (documents.map Object.text) with e | shards
  · exact ensures_bind.mpr (ensures_lookAt_error rfl ⟨rfl, hmade, hfiles⟩)
  · have hfew := hneeds shards hpack
    refine ensures_bind.mpr (ensures_lookAt rfl ?_)
    refine ((ensures_writeShards hmade hplain hfolder (by omega)).mono (fun _ _ => id)
      fun _ _ => False.elim).bind ?_
    rintro - written ⟨hwritten, hshards, hothers⟩
    simp only [Nat.zero_add] at hshards hothers
    have hpresent : ∀ index, (written.file? (shardPath collection index)).isSome ↔
        index < max shards.length count := by
      intro index
      rw [hshards, Directory.file?_of_files_eq hfiles, Option.isSome_or, Bool.or_eq_true, hstored,
        Option.isSome_map]
      simp
    have hfound := shardPaths_eq hwritten hplain (Nat.max_le.mpr ⟨hfew, hcount⟩) hpresent
    refine ensures_bind.mpr (ensures_lookAt hfound ?_)
    refine (ensures_removeBeyond hwritten hpresent).mono ?_ fun _ _ => False.elim
    rintro - after ⟨hafter, hkept, hleft⟩
    refine ⟨hafter, ⟨shards, rfl, fun index => ?_⟩, fun path hpath => ?_⟩
    · rw [hkept, hshards]
      split_ifs with hnew
      · rw [List.getElem?_eq_getElem hnew]
        rfl
      · rw [List.getElem?_eq_none (Nat.le_of_not_lt hnew), Option.map_none]
    · rw [hleft path hpath, hothers path hpath, Directory.file?_of_files_eq hfiles]

end FileStore

end DocumentDb
