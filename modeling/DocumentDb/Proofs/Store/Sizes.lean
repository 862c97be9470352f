import DocumentDb.Proofs.Json.Lengths
import DocumentDb.Proofs.Store.Footprints

/-!
# Sizes of shards

Whatever is called on a store in files that is empty at first: no shard in its directory is larger
than shards may be (`Bounded`). So if the shards of a collection are what encoding the documents
read from them gives again (`Reencodes`), each of these documents fits into a shard of its own, and
so packing them anew with others that fit does not fail. A store in files refuses to write for no
other reason of size than a document that is too large.
-/

namespace DocumentDb

/-- An error that says that a capacity is exceeded. -/
inductive Error.OfCapacity : Error → Prop
  | capacity {overflow : Overflow} : OfCapacity (.capacity overflow)

/-! ### Packed shards -/

namespace Shard
variable {shardMax : Nat}

/-- **The size of a shard is that of its text.** -/
theorem utf8ByteSize_text (texts : List String) : (text texts).utf8ByteSize = size texts := by
  have hopen : "[".utf8ByteSize = 1 := by decide
  have hclose : "]".utf8ByteSize = 1 := by decide
  simp only [text, String.utf8ByteSize_append, utf8ByteSize_intercalate, size, hopen, hclose,
    shardFraming]
  omega

theorem size_le_of_mem {texts : List String} {document : String} (h : document ∈ texts) :
    document.utf8ByteSize + shardFraming ≤ size texts := by
  have hsum : document.utf8ByteSize ≤ (texts.map (·.utf8ByteSize)).foldr (· + ·) 0 := by
    exact List.single_le_sum (fun _ _ => Nat.zero_le _) _ (List.mem_map_of_mem h)
  unfold size
  omega

theorem size_singleton_le {text : String} (hpositive : 0 < text.utf8ByteSize)
    (hfit : text.utf8ByteSize ≤ documentMax shardMax) : size [text] ≤ shardMax := by
  have hsize : size [text] = text.utf8ByteSize + shardFraming := by simp [size]
  unfold documentMax at hfit
  omega

/-- No shard is larger than it may be, if no text is empty. -/
theorem size_fill_le {current texts : List String} {shards : List (List String)}
    (h : fill shardMax current texts = .ok shards)
    (htexts : ∀ text ∈ texts, 0 < text.utf8ByteSize)
    (hcurrent : current ≠ [] → size current ≤ shardMax) :
    ∀ shard ∈ shards, size shard ≤ shardMax := by
  induction texts generalizing current shards with
  | nil =>
    cases current with
    | nil => cases h; nofun
    | cons first rest =>
      cases h
      exact List.forall_mem_singleton.mpr (hcurrent (List.cons_ne_nil _ _))
  | cons text rest ih =>
    obtain ⟨hpositive, hrest⟩ := List.forall_mem_cons.mp htexts
    rw [fill] at h
    split_ifs at h with hlarge hfull
    · have halone := size_singleton_le hpositive (Nat.le_of_not_lt hlarge)
      have hleft : current ≠ [] := by
        rintro rfl
        simp at hfull
      obtain ⟨others, hothers, heq⟩ := bind_ok_iff.mp h
      cases heq
      exact List.forall_mem_cons.mpr ⟨hcurrent hleft, ih hothers hrest fun _ => halone⟩
    · have halone := size_singleton_le hpositive (Nat.le_of_not_lt hlarge)
      refine ih h hrest fun _ => ?_
      by_cases hleft : current = []
      · rw [hleft]
        exact halone
      · have hroom : ¬ size (current ++ [text]) > shardMax := by simpa [hleft] using hfull
        omega

theorem byteSize_pos (document : Document) : 0 < document.byteSize := by
  obtain ⟨inner, hinner⟩ := Object.toList_text document
  rw [Nat.pos_iff_ne_zero]
  intro hzero
  rw [Object.byteSize, String.utf8ByteSize_eq_zero_iff] at hzero
  rw [hzero] at hinner
  cases hinner

/-- **No shard of packed documents is larger than it may be.** -/
theorem size_pack_le {documents : List Document} {shards : List (List String)}
    (h : pack shardMax (documents.map Object.text) = .ok shards) :
    ∀ shard ∈ shards, size shard ≤ shardMax := by
  refine size_fill_le h (fun text hin => ?_) fun hempty => absurd rfl hempty
  obtain ⟨document, -, rfl⟩ := List.mem_map.mp hin
  exact byteSize_pos document

end Shard

namespace FileStore
variable {shardMax : Nat} {directory after : Directory} {collection : String}

/-! ### Shards in a directory -/

/-- No file of a directory that is named like a shard is larger than a shard may be. -/
def ShardsFit (shardMax : Nat) (directory : Directory) : Prop :=
  ∀ front name text, Wildcard.matchesName Wildcard.shardTokens name.toList →
    directory.file? (front ++ [name]) = some text → text.utf8ByteSize ≤ shardMax

/-- **A directory re-encodes**: what encodes the documents that are read from one of its files is
the text of the file. -/
def Reencodes (directory : Directory) : Prop :=
  ∀ path text documents, directory.file? path = some text → Shard.read text = .ok documents →
    Shard.text (documents.map Object.text) = text

theorem reencodes_of_files (h : ∀ file ∈ directory.files, ∀ documents,
    Shard.read file.2 = .ok documents → Shard.text (documents.map Object.text) = file.2) :
    Reencodes directory := by
  intro path text documents hfile hread
  obtain ⟨front, rest, hfiles, -⟩ := List.lookup_eq_some_iff.mp hfile
  have hin : (path, text) ∈ directory.files := by simp [hfiles]
  exact h (path, text) hin documents hread

theorem Touch.shardsFit {written : String → String → Prop}
    (h : Touch collection written directory after)
    (hwritten : ∀ name text, Wildcard.matchesName Wildcard.shardTokens name.toList →
      written name text → text.utf8ByteSize ≤ shardMax)
    (hfit : ShardsFit shardMax directory) : ShardsFit shardMax after := by
  intro front name text hname hfile
  cases h with
  | folder => exact hfit front name text hname hfile
  | @file other_name other_text hfolder hnew =>
    rw [Directory.file?, Directory.lookup_putFile] at hfile
    split_ifs at hfile with heq
    · cases hfile
      have hsame : name = other_name := (List.append_singleton_inj.mp heq).2
      exact hwritten other_name text (hsame ▸ hname) hnew
    · exact hfit front name text hname hfile
  | remove =>
    rw [Directory.file?, Directory.lookup_filter] at hfile
    split_ifs at hfile
    exact hfit front name text hname hfile

theorem Touches.shardsFit {written : String → String → Prop}
    (h : Touches collection written directory after)
    (hwritten : ∀ name text, Wildcard.matchesName Wildcard.shardTokens name.toList →
      written name text → text.utf8ByteSize ≤ shardMax)
    (hfit : ShardsFit shardMax directory) : ShardsFit shardMax after := by
  induction h with
  | refl => exact hfit
  | tail _ htouch ih => exact htouch.shardsFit hwritten ih

/-- **Documents of a collection fit into shards** if the directory re-encodes. -/
theorem ShardsFit.documents (hfit : ShardsFit shardMax directory) (hsame : Reencodes directory)
    {found : List Document} (hfound : FileStore.documents directory collection = .ok found) :
    ∀ document ∈ found, document.FitsShard shardMax := by
  intro document hin
  obtain ⟨path, text, part, hfinds, hfile, hread, hin⟩ := exists_shard_of_mem hfound hin
  obtain ⟨front, name, rfl, hname⟩ := hfinds.exists_name
  have hwhole : (Shard.text (part.map Object.text)).utf8ByteSize ≤ shardMax := by
    rw [hsame _ text part hfile hread]
    exact hfit front name text hname hfile
  have hpart := Shard.size_le_of_mem (List.mem_map_of_mem (f := Object.text) hin)
  rw [Shard.utf8ByteSize_text] at hwhole
  unfold Object.FitsShard Object.byteSize documentMax
  omega

/-- **A store whose shards are at most as large as they may be.** -/
structure Bounded (shardMax : Nat) (store : FileStore) : Prop where
  shardMax_eq : store.shardMax = shardMax
  shardsFit : ShardsFit shardMax store.directory

theorem bounded_empty : Bounded shardMax { shardMax } := ⟨rfl, nofun⟩

/-- **Every call keeps a store bounded**, whether it succeeds or fails. -/
theorem Bounded.answer {store : FileStore} (h : store.Bounded shardMax) (call : StoreCall) :
    (backend.answer store call).2.Bounded shardMax where
  shardMax_eq := (shardMax_after store [call]).trans h.shardMax_eq
  shardsFit := by
    refine (answer_touches store call).shardsFit (fun name text hname hwrites => ?_) h.shardsFit
    cases hwrites with
    | shard hstored hpack hin =>
      have hsize := Shard.size_pack_le hpack _ hin
      rw [h.shardMax_eq] at hsize
      rwa [Shard.utf8ByteSize_text]
    | counter =>
      -- the counter is not named like a shard
      obtain ⟨middle, hmiddle⟩ := (Wildcard.matchesName_shardTokens _).mp hname
      cases hmiddle

/-! ### Why writing fails -/

/-- **The errors of a store in files.** That of a shard occurs only when `overfull` holds. -/
inductive Fails (overfull : Prop) : Error → Prop
  | file : Fails overfull .file
  | json : Fails overfull .json
  | wildcard : Fails overfull .wildcard
  | shard {size shardMax : Nat} (h : overfull) :
    Fails overfull (.capacity (.shardSize size shardMax))

theorem Fails.mono {overfull overfull' : Prop} {e : Error} (h : Fails overfull e)
    (himp : overfull → overfull') : Fails overfull' e := by
  cases h with
  | file => exact .file
  | json => exact .json
  | wildcard => exact .wildcard
  | shard h => exact .shard (himp h)

theorem Fails.not_ofCapacity {overfull : Prop} {e : Error} (h : Fails overfull e)
    (hroom : ¬ overfull) : ¬ e.OfCapacity := by
  rintro ⟨⟩
  cases h with
  | shard h => exact hroom h

variable {overfull : Prop}

theorem shardPaths_fails {e : Error} (h : shardPaths directory collection = .error e) :
    Fails overfull e := by
  unfold shardPaths Wildcard.find at h
  dsimp only at h
  split at h
  · split at h
    · cases h
      exact .wildcard
    · cases h
  · cases h

theorem documents_fails {e : Error} (h : FileStore.documents directory collection = .error e) :
    Fails overfull e := by
  rcases bind_error_iff.mp h with hpaths | ⟨paths, -, h⟩
  · exact shardPaths_fails hpaths
  rcases bind_error_iff.mp h with hparts | ⟨parts, -, h⟩
  · obtain ⟨path, -, hread⟩ := exists_of_mapM_error hparts
    rcases bind_error_iff.mp hread with hfile | ⟨text, -, hread⟩
    · unfold Directory.readFile at hfile
      split at hfile
      · cases hfile
      · cases hfile
        exact .file
    · unfold Shard.read at hread
      split at hread
      · obtain ⟨item, -, hitem⟩ := exists_of_mapM_error hread
        split at hitem
        · cases hitem
        · cases hitem
          exact .json
      · cases hread
        exact .json
  · cases h

theorem makeFoldersFrom_fails (above rest : Path) :
    Ensures (Directory.makeFoldersFrom above rest) directory (fun _ _ => True)
      (fun e _ => Fails overfull e) := by
  induction rest generalizing above directory with
  | nil => exact trivial
  | cons name rest ih =>
    unfold Directory.makeFoldersFrom
    simp only [ensures_bind, ensures_get]
    cases (directory.file? (above ++ [name])).isSome with
    | true => exact .file
    | false =>
      simp only [Bool.false_eq_true, if_false]
      split_ifs
      · exact ih _
      · exact ih _

theorem writeShards_fails (folder : Path) (index : Nat) (shards : List (List String)) :
    Ensures (writeShards folder index shards) directory (fun _ _ => True)
      (fun e _ => Fails overfull e) := by
  induction shards generalizing index directory with
  | nil => exact trivial
  | cons shard rest ih =>
    unfold writeShards Directory.writeFile
    simp only [ensures_bind, ensures_get]
    split_ifs
    · exact ih _
    · exact .file

theorem removeFiles_fails (paths : List Path) :
    Ensures (removeFiles paths) directory (fun _ _ => True) (fun e _ => Fails overfull e) := by
  induction paths generalizing directory with
  | nil => exact trivial
  | cons path rest ih =>
    unfold removeFiles Directory.removeFile
    simp only [ensures_bind, ensures_get]
    split_ifs
    · exact ih
    · exact .file

/-- Writing all documents of a collection fails for a reason of size only if one of them does not
fit. -/
theorem writeDocuments_fails {documents : List Document} :
    Ensures (writeDocuments shardMax collection documents) directory (fun _ _ => True)
      (fun e _ => Fails (∃ document ∈ documents, ¬ document.FitsShard shardMax) e) := by
  refine (makeFoldersFrom_fails [] _).bind fun _ made _ => ?_
  cases hpack : Shard.pack shardMax (documents.map Object.text) with
  | ok shards =>
    refine ensures_bind.mpr (ensures_lookAt rfl ?_)
    refine (writeShards_fails _ 0 shards).bind fun _ filled _ => ?_
    cases hpaths : shardPaths filled collection with
    | ok paths => exact ensures_bind.mpr (ensures_lookAt hpaths (removeFiles_fails _))
    | error e => exact ensures_bind.mpr (ensures_lookAt_error hpaths (shardPaths_fails hpaths))
  | error e =>
    refine ensures_bind.mpr (ensures_lookAt_error rfl ?_)
    have hlarge : ∃ document ∈ documents, ¬ document.FitsShard shardMax := by
      by_contra hfit
      push Not at hfit
      obtain ⟨shards, hshards⟩ := Shard.exists_pack_of_fits hfit
      rw [hpack] at hshards
      cases hshards
    obtain ⟨document, hin, hdocument⟩ := hlarge
    obtain ⟨size, hfails⟩ := Shard.pack_of_large
      ⟨_, List.mem_map_of_mem hin, Nat.lt_of_not_le hdocument⟩
    rw [hpack] at hfails
    cases hfails
    exact .shard ⟨document, hin, hdocument⟩

/-- **A call on documents leaves too much**: some document that the collection is to hold does not
fit into a shard. -/
def Overfull (store : FileStore) (call : StoreCall) : Prop :=
  ∃ stored, documents store.directory call.collection = .ok stored ∧
    ∃ document ∈ call.leaves stored, ¬ document.FitsShard store.shardMax

theorem persist_fails (store : FileStore) (collection : String) (new : List Document) :
    Ensures (backend.persist collection new) store (fun _ _ => True)
      (fun e _ => Fails (store.Overfull (.persist collection new)) e) := by
  show Ensures (write fun shardMax => persist shardMax collection new) store _ _
  refine ensures_write.mpr ?_
  cases hstored : documents store.directory collection with
  | ok stored =>
    refine ensures_bind.mpr (ensures_lookAt hstored (writeDocuments_fails.mono (fun _ _ h => h) ?_))
    exact fun _ _ h => h.mono fun hlarge => ⟨stored, hstored, hlarge⟩
  | error e => exact ensures_bind.mpr (ensures_lookAt_error hstored (documents_fails hstored))

theorem remove_fails (store : FileStore) (collection : String) (ids : List DocId) :
    Ensures (backend.remove collection ids) store (fun _ _ => True)
      (fun e _ => Fails (store.Overfull (.remove collection ids)) e) := by
  show Ensures (write fun shardMax => remove shardMax collection ids) store _ _
  refine ensures_write.mpr ?_
  cases hstored : documents store.directory collection with
  | ok stored =>
    refine ensures_bind.mpr (ensures_lookAt hstored ?_)
    dsimp only
    split_ifs
    · refine ensures_bind.mpr (writeDocuments_fails.mono (fun _ _ _ => trivial) ?_)
      exact fun _ _ h => h.mono fun hlarge => ⟨stored, hstored, hlarge⟩
    · exact trivial
  | error e => exact ensures_bind.mpr (ensures_lookAt_error hstored (documents_fails hstored))

theorem record_fails (store : FileStore) (collection : String) (count : Nat) :
    Ensures (backend.record collection count) store (fun _ _ => True)
      (fun e _ => Fails False e) := by
  show Ensures (write fun _ => record collection count) store _ _
  refine ensures_write.mpr ((makeFoldersFrom_fails [] _).bind fun _ made _ => ?_)
  unfold Directory.writeFile
  simp only [ensures_bind, ensures_get]
  split_ifs
  · exact trivial
  · exact .file

/-- **A bounded store that re-encodes has room** for documents that fit. -/
theorem Bounded.not_overfull {store : FileStore} (h : store.Bounded shardMax)
    (hsame : Reencodes store.directory) {call : StoreCall}
    (hnew : ∀ document ∈ call.documents, document.FitsShard shardMax) :
    ¬ store.Overfull call := by
  rintro ⟨stored, hstored, document, hin, hlarge⟩
  rw [h.shardMax_eq] at hlarge
  rcases StoreCall.mem_leaves hin with hmem | hmem
  · exact hlarge (hnew document hmem)
  · exact hlarge (h.shardsFit.documents hsame hstored document hmem)

/-- A write that keeps a store bounded fails for a reason of size only if a shard does not
re-encode, if nothing else makes the store too full. -/
theorem ensures_roomy {α : Type} {store : FileStore} {change : Write FileStore α} {overfull : Prop}
    (hafter : (change store).2.Bounded shardMax)
    (hfails : Ensures change store (fun _ _ => True) (fun e _ => Fails overfull e))
    (hroom : Reencodes store.directory → ¬ overfull) :
    Ensures change store (fun _ after => after.Bounded shardMax)
      (fun e after => after.Bounded shardMax ∧
        (Reencodes store.directory → ¬ e.OfCapacity)) := by
  refine ((ensures_of_state hafter).and hfails).mono (fun _ _ h => h.1) ?_
  exact fun e after h => ⟨h.1, fun hsame => h.2.not_ofCapacity (hroom hsame)⟩

variable {store : FileStore}

/-- **Storing documents that fit** fails for a reason of size only if a shard does not re-encode. -/
theorem Bounded.persist (h : store.Bounded shardMax) {new : List Document}
    (hnew : ∀ document ∈ new, document.FitsShard shardMax) :
    Ensures (backend.persist collection new) store (fun _ after => after.Bounded shardMax)
      (fun e after => after.Bounded shardMax ∧
        (Reencodes store.directory → ¬ e.OfCapacity)) :=
  ensures_roomy (h.answer (.persist collection new)) (persist_fails store collection new)
    fun hsame => h.not_overfull hsame hnew

/-- Removing documents fails for a reason of size only if a shard does not re-encode. -/
theorem Bounded.remove (h : store.Bounded shardMax) {ids : List DocId} :
    Ensures (backend.remove collection ids) store (fun _ after => after.Bounded shardMax)
      (fun e after => after.Bounded shardMax ∧
        (Reencodes store.directory → ¬ e.OfCapacity)) :=
  ensures_roomy (h.answer (.remove collection ids)) (remove_fails store collection ids)
    fun hsame => h.not_overfull hsame nofun

/-- Storing a counter never fails for a reason of size. -/
theorem Bounded.record (h : store.Bounded shardMax) {count : Nat} :
    Ensures (backend.record collection count) store (fun _ after => after.Bounded shardMax)
      (fun e after => after.Bounded shardMax ∧
        (Reencodes store.directory → ¬ e.OfCapacity)) :=
  ensures_roomy (h.answer (.record collection count)) (record_fails store collection count)
    fun _ => not_false

end FileStore

end DocumentDb
