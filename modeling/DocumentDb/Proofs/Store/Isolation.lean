import DocumentDb.Proofs.Store.Footprints
import DocumentDb.Schema.Registry
import Mathlib

/-!
# Collections that do not reach each other

A collection of a store in files lives in a folder, but what lies there is found by a pattern in
which the name of the collection stands as it is. A call on a collection whose name makes a literal
path touches files of its own and the way to its folder, and nothing else (`answer_frame`).
Collections whose names make literal paths to different folders are isolated, unless the way to one
folder leads through a path that is a file of the other (`Apart`): whatever calls have come before,
a call on one of them changes nothing that can be read of the other, and a collection holds only
what was stored in it (`collections_isolated`). Plain names are apart (`apart_of_plain`).

With a wildcard in its name a collection reaches into the folders of others: it removes their
documents and returns them as its own (`starred_reaches`).
-/

namespace DocumentDb

namespace FileStore

/-! ### Names that are apart -/

/-- The names of the files of a collection: those like shards, and that of the counter. -/
inductive OwnName : String → Prop
  | shard {name : String} (hname : Wildcard.matchesName Wildcard.shardTokens name.toList) :
    OwnName name
  | counter : OwnName Counter.fileName

/-- The files of a collection, in its folder. -/
def Owns (collection : String) (path : Path) : Prop :=
  ∃ name, path = folder collection ++ [name] ∧ OwnName name

/-- **A collection lives in a literal folder** if the way there stays below the directory and has
no wildcard. -/
structure LiteralFolder (collection : String) : Prop where
  literal : ∀ name ∈ folder collection, Wildcard.Literal name
  below : ".." ∉ folder collection
  relative : collection.toList.head? ≠ some '/'

/-- **A collection is apart from another one**: both live in literal folders of their own, and the
way to the first leads through no file of the other. -/
structure Apart (collection other : String) : Prop where
  literal : LiteralFolder collection
  literal_other : LiteralFolder other
  folders : folder collection ≠ folder other
  way : ∀ path, path <+: folder collection → ¬ Owns other path

theorem OwnName.point {name : String} (h : OwnName name) : '.' ∈ name.toList := by
  cases h with
  | shard hname =>
    obtain ⟨middle, hmiddle⟩ := (Wildcard.matchesName_shardTokens _).mp hname
    rw [hmiddle]
    simp
  | counter => decide

theorem ownName_fileName (index : Nat) : OwnName (Shard.fileName index) := by
  refine .shard ?_
  rw [Wildcard.matchesName_shardTokens, Shard.toList_fileName]
  exact ⟨_, rfl⟩

theorem literalFolder_of_plain {collection : String} (h : Plain collection) :
    LiteralFolder collection := by
  refine ⟨Wildcard.literal_of_plain h, fun hin => ?_, fun hhead => ?_⟩
  · rw [folder_plain h] at hin
    split_ifs at hin with hempty
    · cases hin
    · rw [← List.mem_singleton.mp hin] at h
      exact h '.' (by decide) (by decide)
  · exact h '/' (List.mem_of_mem_head? hhead) (by decide)

/-- Collections with different plain names are apart. -/
theorem apart_of_plain {collection other : String} (h : Plain collection) (hother : Plain other)
    (hne : collection ≠ other) : Apart collection other := by
  refine ⟨literalFolder_of_plain h, literalFolder_of_plain hother,
    fun hfolder => hne (folder_inj h hother hfolder), ?_⟩
  rintro path hway ⟨name, rfl, hname⟩
  -- a name with a point would have to be the name of the collection
  have hin : name ∈ folder collection := hway.subset (by simp)
  rw [folder_plain h] at hin
  split_ifs at hin with hempty
  · cases hin
  · rw [List.mem_singleton.mp hin] at hname
    exact h '.' hname.point (by decide)

/-! ### What a call spares -/

/-- **A step spares a region** of a directory: the folders and the files there are the same before
and after, in the same order. -/
structure Spares (region : Path → Prop) (before after : Directory) : Prop where
  folders : ∀ keep : Path → Bool, (∀ path, keep path → region path) →
    after.folders.filter keep = before.folders.filter keep
  files : ∀ keep : Path → Bool, (∀ path, keep path → region path) →
    after.files.filter (fun file => keep file.1) = before.files.filter fun file => keep file.1

section Spares
variable {region : Path → Prop} {directory before after : Directory} {collection : String}
  {written : String → String → Prop}

theorem Spares.refl : Spares region directory directory := ⟨fun _ _ => rfl, fun _ _ => rfl⟩

theorem Spares.trans {middle : Directory} (h : Spares region before middle)
    (h' : Spares region middle after) : Spares region before after :=
  ⟨fun keep hkeep => (h'.folders keep hkeep).trans (h.folders keep hkeep),
    fun keep hkeep => (h'.files keep hkeep).trans (h.files keep hkeep)⟩

theorem filter_putFile {path : Path} {text : String} {keep : Path → Bool}
    (hpath : keep path = false) (files : List (Path × String)) :
    (Directory.putFile path text files).filter (fun file => keep file.1) =
      files.filter fun file => keep file.1 := by
  induction files with
  | nil => simp [Directory.putFile, hpath]
  | cons file rest ih =>
    by_cases heq : file.1 = path
    · simp [Directory.putFile, heq, hpath]
    · simp [Directory.putFile, heq, List.filter_cons, ih]

theorem filter_removed {path : Path} {keep : Path → Bool} (hpath : keep path = false)
    (files : List (Path × String)) :
    (files.filter (·.1 ≠ path)).filter (fun file => keep file.1) =
      files.filter fun file => keep file.1 := by
  rw [List.filter_filter]
  refine List.filter_congr fun file _ => ?_
  by_cases heq : file.1 = path
  · simp [heq, hpath]
  · simp [heq]

/-- With a region its parts are spared. -/
theorem Spares.mono {part : Path → Prop} (h : Spares region before after)
    (hpart : ∀ path, part path → region path) : Spares part before after :=
  ⟨fun keep hkeep => h.folders keep fun path hpath => hpart path (hkeep path hpath),
    fun keep hkeep => h.files keep fun path hpath => hpart path (hkeep path hpath)⟩

/-- Touches outside of a region spare it. -/
theorem Touch.spares (h : Touch collection written directory after)
    (hway : ∀ path, path <+: FileStore.folder collection → ¬ region path)
    (hwritten : ∀ name text, written name text → ¬ region (FileStore.folder collection ++ [name]))
    (hfound : ∀ path, Finds collection path → ¬ region path) : Spares region directory after := by
  have houtside {path : Path} (hpath : ¬ region path) {keep : Path → Bool}
      (hkeep : ∀ path, keep path → region path) : keep path = false :=
    Bool.eq_false_iff.mpr fun h => hpath (hkeep path h)
  cases h with
  | @folder path hpath hparent =>
    refine ⟨fun keep hkeep => ?_, fun _ _ => rfl⟩
    have hnot := houtside (hway path hpath) hkeep
    simp [List.filter_append, hnot]
  | file hfolder hname =>
    refine ⟨fun _ _ => rfl, fun keep hkeep => ?_⟩
    exact filter_putFile (houtside (hwritten _ _ hname) hkeep) _
  | @remove path hpath =>
    refine ⟨fun _ _ => rfl, fun keep hkeep => ?_⟩
    exact filter_removed (houtside (hfound path hpath) hkeep) _

theorem Touches.spares (h : Touches collection written directory after)
    (hway : ∀ path, path <+: folder collection → ¬ region path)
    (hwritten : ∀ name text, written name text → ¬ region (folder collection ++ [name]))
    (hfound : ∀ path, Finds collection path → ¬ region path) : Spares region directory after := by
  induction h with
  | refl => exact .refl
  | tail _ htouch ih => exact ih.trans (htouch.spares hway hwritten hfound)

theorem Finds.owned (hliteral : LiteralFolder collection) {path : Path}
    (h : Finds collection path) : ∃ name, path = folder collection ++ [name] ∧
      Wildcard.matchesName Wildcard.shardTokens name.toList := by
  obtain ⟨parts, hparts, hmatch⟩ := h
  rw [Wildcard.parts?_shards hliteral.literal] at hparts
  cases hparts
  exact (Wildcard.matchesPath_shardParts _ _).mp hmatch

theorem Writes.ownName {store : FileStore} {call : StoreCall} {name text : String}
    (h : Writes store call name text) : OwnName name := by
  cases h with
  | shard => exact ownName_fileName _
  | counter => exact .counter

/-- **The frame of a call** on a collection that lives in a literal folder: whether it succeeds or
fails, it spares all but the files of the collection and the way to its folder. -/
theorem answer_frame (store : FileStore) {call : StoreCall}
    (hliteral : LiteralFolder call.collection) :
    Spares (fun path => ¬ Owns call.collection path ∧ ¬ path <+: folder call.collection)
      store.directory (backend.answer store call).2.directory := by
  refine (answer_touches store call).spares (fun path hway hout => hout.2 hway) ?_ ?_
  · intro name text hwritten hout
    exact hout.1 ⟨name, rfl, hwritten.ownName⟩
  · intro path hfound hout
    obtain ⟨name, rfl, hname⟩ := hfound.owned hliteral
    exact hout.1 ⟨name, rfl, .shard hname⟩

/-- **A call on a collection spares the files of another one** that it is apart from. -/
theorem answer_spares {other : String} (hapart : Apart collection other) (store : FileStore)
    {call : StoreCall} (hcall : call.collection = collection) :
    Spares (Owns other) store.directory (backend.answer store call).2.directory := by
  subst hcall
  refine (answer_frame store hapart.literal).mono fun path hother => ⟨?_, ?_⟩
  · rintro ⟨name, rfl, -⟩
    obtain ⟨own, hpath, -⟩ := hother
    exact hapart.folders (List.append_singleton_inj.mp hpath).1
  · exact fun hway => hapart.way path hway hother

end Spares

/-! ### Reading what was spared -/

section Reading
variable {region : Path → Prop} {before after directory : Directory} {collection : String}

theorem lookup_filter_self (files : List (Path × String)) (path : Path) :
    (files.filter fun file => file.1 == path).lookup path = files.lookup path := by
  induction files with
  | nil => rfl
  | cons file rest ih =>
    by_cases heq : file.1 = path
    · rw [List.filter_cons_of_pos (by simp [heq]), Directory.lookup_file, Directory.lookup_file]
      simp [heq]
    · rw [List.filter_cons_of_neg (by simp [heq]), Directory.lookup_file, ih,
        if_neg (Ne.symm heq)]

theorem Spares.file?_eq (h : Spares region before after) {path : Path} (hpath : region path) :
    after.file? path = before.file? path := by
  have hkeep : ∀ other, (other == path) = true → region other := fun other heq => by
    rwa [eq_of_beq heq]
  have hfiles := h.files (· == path) hkeep
  rw [Directory.file?, Directory.file?, ← lookup_filter_self, hfiles, lookup_filter_self]

theorem Spares.contains_eq (h : Spares region before after) {path : Path} (hpath : region path) :
    after.contains path = before.contains path := by
  have hkeep : ∀ other, (other == path) = true → region other := fun other heq => by
    rwa [eq_of_beq heq]
  have hfolders := h.folders (· == path) hkeep
  have hmem : path ∈ after.folders ↔ path ∈ before.folders := by
    have hiff := congrArg (path ∈ ·) hfolders
    simpa [List.mem_filter] using hiff
  have hcontains : after.folders.contains path = before.folders.contains path := by
    rw [Bool.eq_iff_iff, List.contains_iff_mem, List.contains_iff_mem, hmem]
  rw [Directory.contains, Directory.contains, Directory.isFolder, Directory.isFolder, hcontains,
    h.file?_eq hpath]

/-- The shards of a collection are what its pattern finds, whether its folder was made or not. -/
theorem shardPaths_literal (hrooted : directory.Rooted) (hliteral : LiteralFolder collection) :
    shardPaths directory collection =
      .ok (((directory.folders ++ directory.files.map (·.1)).filter
        (Wildcard.matchesPath (Wildcard.shardParts (folder collection)))).mergeSort
          Wildcard.pathBefore) := by
  unfold shardPaths
  dsimp only
  split_ifs with hcontains
  · exact Wildcard.find_literal hliteral.literal directory
  · have hnone : (directory.folders ++ directory.files.map (·.1)).filter
        (Wildcard.matchesPath (Wildcard.shardParts (folder collection))) = [] := by
      refine List.filter_eq_nil_iff.mpr fun path hin hmatch => hcontains ?_
      obtain ⟨name, rfl, -⟩ := (Wildcard.matchesPath_shardParts _ _).mp hmatch
      have hparent : directory.isFolder (folder collection ++ [name]).dropLast :=
        (List.mem_append.mp hin).elim (hrooted.folders _) (hrooted.files _)
      rw [List.dropLast_concat] at hparent
      rw [Directory.contains, hparent, Bool.true_or]
    rw [hnone, List.mergeSort_nil]

theorem owns_of_matches {path : Path}
    (h : Wildcard.matchesPath (Wildcard.shardParts (folder collection)) path) :
    Owns collection path := by
  obtain ⟨name, rfl, hname⟩ := (Wildcard.matchesPath_shardParts _ _).mp h
  exact ⟨name, rfl, .shard hname⟩

/-- The documents of a collection are the same if its files are spared. -/
theorem Spares.documents_eq (h : Spares (Owns collection) before after) (hbefore : before.Rooted)
    (hafter : after.Rooted) (hliteral : LiteralFolder collection) :
    documents after collection = documents before collection := by
  have hpaths : shardPaths after collection = shardPaths before collection := by
    rw [shardPaths_literal hafter hliteral, shardPaths_literal hbefore hliteral,
      List.filter_append, List.filter_append, h.folders _ fun _ => owns_of_matches,
      List.filter_map, List.filter_map]
    have hfiles := h.files (Wildcard.matchesPath (Wildcard.shardParts (folder collection)))
      fun _ => owns_of_matches
    exact congrArg (fun files => Except.ok ((_ ++ List.map _ files).mergeSort _)) hfiles
  unfold documents
  rw [hpaths]
  cases hfound : shardPaths before collection with
  | error e => rfl
  | ok paths =>
    have hread : paths.mapM (fun path => after.readFile path >>= Shard.read) =
        paths.mapM fun path => before.readFile path >>= Shard.read := by
      refine mapM_congr fun path hin => ?_
      obtain ⟨name, rfl, hname⟩ := (finds_of_mem hfound hin).owned hliteral
      rw [Directory.readFile, h.file?_eq ⟨name, rfl, .shard hname⟩, ← Directory.readFile]
    exact congrArg (fun shards => shards >>= fun shards => pure shards.flatten) hread

theorem Spares.counter_eq (h : Spares (Owns collection) before after) :
    counter after collection = counter before collection := by
  have hown : Owns collection (folder collection ++ [Counter.fileName]) := ⟨_, rfl, .counter⟩
  unfold counter
  dsimp only
  rw [h.contains_eq hown, Directory.readFile, h.file?_eq hown, ← Directory.readFile]

end Reading

/-! ### Where documents come from -/

/-- **A document stems from others**: it is one of them, or it was read from the text of a shard of
documents that stem from them. -/
inductive Stems (given : Document → Prop) : Document → Prop
  | given {document : Document} (h : given document) : Stems given document
  | reread {documents found : List Document} {document : Document}
    (hdocuments : ∀ other ∈ documents, Stems given other)
    (hread : Shard.read (Shard.text (documents.map Object.text)) = .ok found)
    (hin : document ∈ found) : Stems given document

/-- What stems from documents that are read back as they are is one of them. -/
theorem Stems.of_readsBack {given : Document → Prop} (hgiven : ∀ document, given document →
    ReadsBack document) {document : Document} (h : Stems given document) : given document := by
  induction h with
  | given h => exact h
  | reread _ hread hin ih =>
    have hsame := Shard.read_text fun document hin => hgiven document (ih document hin)
    rw [hsame] at hread
    cases hread
    exact ih _ hin

section Sources
variable {given : Document → Prop} {collection : String} {directory after : Directory}
  {store : FileStore}

/-- The shards of a collection hold documents that stem from given ones. -/
def Sourced (given : Document → Prop) (collection : String) (directory : Directory) : Prop :=
  ∀ name text, Wildcard.matchesName Wildcard.shardTokens name.toList →
    directory.file? (folder collection ++ [name]) = some text →
      ∃ documents : List Document, text = Shard.text (documents.map Object.text) ∧
        ∀ document ∈ documents, Stems given document

theorem Touch.sourced {other : String} {written : String → String → Prop}
    (h : Touch other written directory after)
    (hwritten : FileStore.folder other = FileStore.folder collection → ∀ name text,
      Wildcard.matchesName Wildcard.shardTokens name.toList → written name text →
        ∃ documents : List Document, text = Shard.text (documents.map Object.text) ∧
          ∀ document ∈ documents, Stems given document)
    (hsourced : Sourced given collection directory) : Sourced given collection after := by
  intro name text hname hfile
  cases h with
  | folder => exact hsourced name text hname hfile
  | @file other_name other_text hfolder hnew =>
    rw [Directory.file?, Directory.lookup_putFile] at hfile
    split_ifs at hfile with heq
    · cases hfile
      obtain ⟨hfolders, hnames⟩ := List.append_singleton_inj.mp heq
      exact hwritten hfolders.symm other_name text (hnames ▸ hname) hnew
    · exact hsourced name text hname hfile
  | remove =>
    rw [Directory.file?, Directory.lookup_filter] at hfile
    split_ifs at hfile
    exact hsourced name text hname hfile

theorem Touches.sourced {other : String} {written : String → String → Prop}
    (h : Touches other written directory after)
    (hwritten : folder other = folder collection → ∀ name text,
      Wildcard.matchesName Wildcard.shardTokens name.toList → written name text →
        ∃ documents : List Document, text = Shard.text (documents.map Object.text) ∧
          ∀ document ∈ documents, Stems given document)
    (hsourced : Sourced given collection directory) : Sourced given collection after := by
  induction h with
  | refl => exact hsourced
  | tail _ htouch ih => exact htouch.sourced hwritten ih

/-- The documents of a collection depend on its folder only. -/
theorem documents_of_folder_eq {other : String} (h : folder other = folder collection) :
    documents directory other = documents directory collection := by
  unfold documents shardPaths
  rw [h]

theorem Sourced.documents (h : Sourced given collection directory)
    (hliteral : LiteralFolder collection) {found : List Document}
    (hfound : FileStore.documents directory collection = .ok found) {document : Document}
    (hin : document ∈ found) : Stems given document := by
  obtain ⟨path, text, part, hfinds, hfile, hread, hin⟩ := exists_shard_of_mem hfound hin
  obtain ⟨name, rfl, hname⟩ := hfinds.owned hliteral
  obtain ⟨documents, rfl, hdocuments⟩ := h name text hname hfile
  exact .reread hdocuments hread hin

/-- A shard of packed documents is a part of them. -/
theorem mem_pack {shardMax : Nat} {documents : List Document} {shards : List (List String)}
    (hpack : Shard.pack shardMax (documents.map Object.text) = .ok shards) {shard : List String}
    (hin : shard ∈ shards) :
    ∃ part : List Document, shard = part.map Object.text ∧ part ⊆ documents := by
  obtain ⟨parts, rfl, rfl⟩ := Shard.exists_parts (Shard.flatten_pack hpack)
  obtain ⟨part, hpart, rfl⟩ := List.mem_map.mp hin
  exact ⟨part, rfl, fun document hmem => List.mem_flatten.mpr ⟨part, hpart, hmem⟩⟩

/-- A call keeps the source of the documents of a collection. -/
theorem answer_sourced (hliteral : LiteralFolder collection) {call : StoreCall}
    (hcall : folder call.collection = folder collection → ∀ document ∈ call.documents,
      given document) (h : Sourced given collection store.directory) :
    Sourced given collection (backend.answer store call).2.directory := by
  refine (answer_touches store call).sourced (fun hfolder name text hname hwrites => ?_) h
  cases hwrites with
  | shard hstored hpack hin =>
    obtain ⟨part, rfl, hpart⟩ := mem_pack hpack hin
    refine ⟨part, rfl, fun document hmem => ?_⟩
    rw [documents_of_folder_eq hfolder] at hstored
    rcases StoreCall.mem_leaves (hpart hmem) with hnew | hold
    · exact .given (hcall hfolder document hnew)
    · exact h.documents hliteral hstored hold
  | counter =>
    obtain ⟨middle, hmiddle⟩ := (Wildcard.matchesName_shardTokens _).mp hname
    cases hmiddle

theorem sourced_after (store : FileStore) (hliteral : LiteralFolder collection)
    {calls : List StoreCall}
    (hcalls : ∀ call ∈ calls, folder call.collection = folder collection →
      ∀ document ∈ call.documents, given document)
    (h : Sourced given collection store.directory) :
    Sourced given collection (backend.after store calls).directory := by
  induction calls generalizing store with
  | nil => exact h
  | cons call rest ih =>
    obtain ⟨hcall, hrest⟩ := List.forall_mem_cons.mp hcalls
    exact ih _ hrest (answer_sourced hliteral hcall h)

end Sources

end FileStore

/-! ### Isolation -/

/-- Nothing that can be read of a collection differs between two states of a store. -/
structure Backend.ReadsAlike {σ : Type} (backend : Backend σ) (collection : String)
    (before after : σ) : Prop where
  all : backend.all after collection = backend.all before collection
  state : backend.state after collection = backend.state before collection
  fetch : ∀ id, backend.fetch after collection id = backend.fetch before collection id

/-- Some call of a list stores a document in the folder of a collection. -/
def StoredIn (collection : String) (calls : List StoreCall) (document : Document) : Prop :=
  ∃ call ∈ calls, FileStore.folder call.collection = FileStore.folder collection ∧
    document ∈ call.documents

/-- **Collections that are apart are isolated.** Whatever calls have come before, a call on one of
them changes nothing that can be read of the other; and all documents of a collection were stored
in it, or were read from texts of documents that were. -/
theorem collections_isolated {shardMax : Nat} {collection other : String}
    (hapart : FileStore.Apart collection other) (calls : List StoreCall) :
    (∀ call : StoreCall, call.collection = collection →
      FileStore.backend.ReadsAlike other (FileStore.backend.after { shardMax } calls)
        (FileStore.backend.answer (FileStore.backend.after { shardMax } calls) call).2) ∧
    ∀ found, FileStore.backend.all (FileStore.backend.after { shardMax } calls) collection =
        .ok found →
      ∀ document ∈ found, FileStore.Stems (StoredIn collection calls) document ∧
        ((∀ stored, StoredIn collection calls stored → ReadsBack stored) →
          StoredIn collection calls document) := by
  refine ⟨fun call hcall => ?_, fun found hfound document hin => ?_⟩
  · generalize hbefore : FileStore.backend.after { shardMax } calls = before
    have hrooted : before.directory.Rooted :=
      hbefore ▸ FileStore.rooted_after { shardMax } FileStore.rooted_empty calls
    have hafter := (FileStore.answer_touches before call).rooted hrooted
    have hspares := FileStore.answer_spares hapart before hcall
    have hdocuments := hspares.documents_eq hrooted hafter hapart.literal_other
    have hmax : (FileStore.backend.answer before call).2.shardMax = before.shardMax :=
      FileStore.shardMax_after before [call]
    refine ⟨hdocuments, ?_, fun id => ?_⟩
    · show FileStore.state _ other = FileStore.state before other
      unfold FileStore.state
      rw [hspares.counter_eq, hdocuments, hmax]
    · show (FileStore.documents _ other >>= fun found => pure (findDocument found id)) = _
      rw [hdocuments]
      rfl
  · have hempty : FileStore.Sourced (StoredIn collection calls) collection {} := nofun
    have hsourced := FileStore.sourced_after { shardMax } hapart.literal
      (fun call hcall hfolder document hmem => ⟨call, hcall, hfolder, hmem⟩) hempty
    have hstems := hsourced.documents hapart.literal hfound hin
    exact ⟨hstems, fun hreads => hstems.of_readsBack hreads⟩

/-! ### A folder in a folder -/

/-- A document with nothing but an id. -/
def bare : Document := [("id", .ofNat 1)]

/-- Calls that store a document in a folder and a counter in a folder inside it. -/
def nestedCalls : List StoreCall := [.persist "a" [bare], .record "a/b" 3]

theorem nested_apart : FileStore.Apart "a" "a/b" := by
  refine ⟨⟨by decide, by decide, by decide⟩, ⟨by decide, by decide, by decide⟩, by decide, ?_⟩
  rintro path hway ⟨name, rfl, -⟩
  -- the way to the outer folder is too short
  have hinner : (FileStore.folder "a/b").length = 2 := by decide
  have houter : (FileStore.folder "a").length = 1 := by decide
  have hlength := hway.length_le
  rw [List.length_append, hinner, houter] at hlength
  omega

/-- Removing the document of the outer folder leaves the inner one alone. -/
theorem nested_isolated :
    FileStore.backend.ReadsAlike "a/b" (FileStore.backend.after { shardMax := 40 } nestedCalls)
      (FileStore.backend.answer (FileStore.backend.after { shardMax := 40 } nestedCalls)
        (.remove "a" [.number 1])).2 ∧
    FileStore.backend.all (FileStore.backend.after { shardMax := 40 } nestedCalls) "a" =
      .ok [bare] ∧
    StoredIn "a" nestedCalls bare := by
  have hisolated := @collections_isolated 40 _ _ nested_apart nestedCalls
  obtain ⟨hspares, hsources⟩ := hisolated
  have hall : FileStore.backend.all (FileStore.backend.after { shardMax := 40 } nestedCalls)
      "a" = .ok [bare] := by cbv
  have hreads : ReadsBack bare := by
    unfold ReadsBack
    cbv
  refine ⟨hspares _ rfl, hall, (hsources _ hall _ (List.mem_singleton_self _)).2 ?_⟩
  rintro stored ⟨call, hcall, -, hin⟩
  simp only [nestedCalls, List.mem_cons, List.not_mem_nil, or_false] at hcall
  rcases hcall with rfl | rfl
  · rwa [List.mem_singleton.mp hin]
  · cases hin

/-! ### A name with a wildcard -/

/-- A schema with a collection whose name has a wildcard. -/
def starDefinitions : List Definition :=
  [⟨"ab", {}, [("x", .string "Number")]⟩, ⟨"a*", {}, [("x", .string "Number")]⟩]

/-- The store after a document was stored in one collection and the folder of the other was made. -/
def starStore : FileStore :=
  FileStore.backend.after { shardMax := 1000 } [.persist "ab" [bare], .record "a*" 0]

/-- The collection with the wildcard returns the document of the other one and removes it. -/
theorem starred_reaches :
    (∃ registry, Registry.compile 1000 starDefinitions = .ok registry) ∧
    FileStore.backend.all starStore "ab" = .ok [bare] ∧
    FileStore.backend.all starStore "a*" = .ok [bare] ∧
    FileStore.backend.all (FileStore.backend.answer starStore (.remove "a*" [.number 1])).2 "ab" =
      .ok [] ∧
    ¬ FileStore.backend.ReadsAlike "ab" starStore
      (FileStore.backend.answer starStore (.remove "a*" [.number 1])).2 := by
  have hbefore : FileStore.backend.all starStore "ab" = .ok [bare] := by
    cbv
  have hafter : FileStore.backend.all
      (FileStore.backend.answer starStore (.remove "a*" [.number 1])).2 "ab" = .ok [] := by
    cbv
  refine ⟨⟨_, rfl⟩, hbefore, by cbv, hafter, fun h => ?_⟩
  have hsame := h.all
  rw [hbefore, hafter] at hsame
  cases hsame

end DocumentDb
