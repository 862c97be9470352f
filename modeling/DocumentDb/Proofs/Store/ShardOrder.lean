import DocumentDb.Proofs.Store.Packing
import DocumentDb.Proofs.Store.Writing
import Mathlib.Data.List.Flatten
import Mathlib.Data.List.GetD

/-!
# The order of shards

The shards of a collection are read in the order of the names of their files. These are in the order
of the numbers as long as four digits are enough. From then on they are not: the shard of number
10000 stands before that of number 1001. So the documents of a collection are read in the order in
which they were written just if they need no more shards than four digits can count.

* `FileStore.storage_order`: what is found and read after documents were written, however many
  shards they need and whatever the store was used for before.
-/

namespace DocumentDb

open Json

/-! ### Two elements of a list -/

section Pairs
variable {α : Type} {a b : α} {list : List α}

/-- Of two elements of a list one stands before the other. -/
theorem pair_sublist (ha : a ∈ list) (hb : b ∈ list) (hne : a ≠ b) :
    [a, b].Sublist list ∨ [b, a].Sublist list := by
  obtain ⟨front, back, rfl⟩ := List.append_of_mem ha
  rcases List.mem_append.mp hb with hb | hb
  · exact .inr ((List.singleton_sublist.mpr hb).append
      (List.singleton_sublist.mpr List.mem_cons_self))
  · have hb := (List.mem_cons.mp hb).resolve_left hne.symm
    exact .inl (((List.singleton_sublist.mpr hb).cons_cons a).trans (List.sublist_append_right _ _))

/-- Of two elements of a list without repetition only one stands before the other. -/
theorem not_pair_sublist (hnodup : list.Nodup) (h : [a, b].Sublist list) :
    ¬ [b, a].Sublist list := by
  induction list with
  | nil => cases h
  | cons first rest ih =>
    obtain ⟨hfirst, hrest⟩ := List.nodup_cons.mp hnodup
    intro hback
    rcases List.sublist_cons_iff.mp h with hboth | ⟨_, heq, hb⟩
    · rcases List.sublist_cons_iff.mp hback with hback | ⟨_, heq, -⟩
      · exact ih hrest hboth hback
      · cases heq
        exact hfirst (hboth.subset (by simp))
    · cases heq
      rcases List.sublist_cons_iff.mp hback with hback | ⟨_, heq, -⟩
      · exact hfirst (hback.subset (by simp))
      · cases heq
        exact hfirst (List.singleton_sublist.mp hb)

end Pairs

namespace Shard

/-! ### The order of names -/

/-- The numbers of shards in the order of the names of their files. -/
def byName (count : Nat) : List Nat :=
  (List.range count).mergeSort fun i j => decide (fileName i ≤ fileName j)

theorem byName_perm (count : Nat) : (byName count).Perm (List.range count) :=
  List.mergeSort_perm _ _

theorem pairwise_byName (count : Nat) :
    (byName count).Pairwise fun i j => fileName i ≤ fileName j := by
  have hsorted : (byName count).Pairwise fun i j => decide (fileName i ≤ fileName j) := by
    refine List.pairwise_mergeSort (fun i j k h h' => ?_) (fun i j => ?_) _
    · exact decide_eq_true ((of_decide_eq_true h).trans (of_decide_eq_true h'))
    · simpa using le_total (fileName i) (fileName j)
  exact hsorted.imp of_decide_eq_true

theorem mem_byName {count index : Nat} : index ∈ byName count ↔ index < count := by
  rw [(byName_perm count).mem_iff, List.mem_range]

/-- **Beyond four digits a larger number may have a smaller name.** -/
theorem fileName_countMax_lt : fileName countMax < fileName 1001 := by decide

/-- The first shard beyond four digits stands before one of an earlier number. -/
theorem beyond_sublist_byName {count : Nat} (h : countMax < count) :
    [countMax, 1001].Sublist (byName count) := by
  have hsmall : 1001 < countMax := by decide
  rcases pair_sublist (mem_byName.mpr h) (mem_byName.mpr (hsmall.trans h)) hsmall.ne' with
    hbefore | hbehind
  · exact hbefore
  · have hle := List.pairwise_iff_forall_sublist.mp (pairwise_byName count) hbehind
    exact absurd fileName_countMax_lt (not_lt_of_ge hle)

/-- The numbers of these two shards are in the other order. -/
theorem sublist_range {count : Nat} (h : countMax < count) :
    [1001, countMax].Sublist (List.range count) := by
  have hsmall : 1001 < countMax := by decide
  rcases pair_sublist (List.mem_range.mpr (hsmall.trans h)) (List.mem_range.mpr h) hsmall.ne with
    hbefore | hbehind
  · exact hbefore
  · have hlt := List.pairwise_iff_forall_sublist.mp List.pairwise_lt_range hbehind
    exact absurd hlt hsmall.asymm

/-- **The order of names is that of numbers** just if four digits are enough. -/
theorem byName_eq_range_iff {count : Nat} : byName count = List.range count ↔ count ≤ countMax := by
  refine ⟨fun h => ?_, fun h => ?_⟩
  · by_contra hmany
    have hbeyond := Nat.lt_of_not_le hmany
    exact not_pair_sublist List.nodup_range (sublist_range hbeyond)
      (h ▸ beyond_sublist_byName hbeyond)
  · refine (byName_perm count).eq_of_pairwise
      (fun i j _ _ hle hge => fileName_inj (le_antisymm hle hge)) (pairwise_byName count) ?_
    refine List.pairwise_lt_range.imp_of_mem fun {i j} _ hj hlt => ?_
    exact (fileName_lt hlt (Nat.lt_of_lt_of_le (List.mem_range.mp hj) h)).le

end Shard

namespace FileStore

/-! ### Reading in the order of names -/

section Reading
variable {directory : Directory} {collection : String}

/-- **The shards of a collection are found in the order of their names.** -/
theorem HasShards.shardPaths_eq {shards : List (List String)}
    (h : HasShards directory collection shards) (hplain : Plain collection) :
    shardPaths directory collection =
      .ok ((Shard.byName shards.length).map (shardPath collection)) := by
  rw [shardPaths_plain hplain h.folder]
  refine congrArg Except.ok (Wildcard.mergeSort_pathBefore
    (h.found.trans ((Shard.byName_perm _).map _).symm) (List.pairwise_map.mpr ?_))
  refine (Shard.pairwise_byName _).imp fun {i j} hle => ?_
  rw [shardPath, shardPath, Wildcard.pathBefore_append]
  simp [Wildcard.pathBefore, hle]

/-- **They are in the order of their numbers** just if four digits are enough. -/
theorem HasShards.shardPaths_eq_iff {shards : List (List String)}
    (h : HasShards directory collection shards) (hplain : Plain collection) :
    shardPaths directory collection = .ok (firstShards collection shards.length) ↔
      shards.length ≤ Shard.countMax := by
  rw [h.shardPaths_eq hplain, firstShards, ← Shard.byName_eq_range_iff, Except.ok.injEq,
    List.map_inj_right fun _ _ => shardPath_inj.mp]

variable {parts : List (List Document)}

/-- The documents of parts, in the order of the names of their shards. -/
def inOrderOfNames (parts : List (List Document)) : List Document :=
  (Shard.byName parts.length).flatMap fun index => parts.getD index []

theorem flatMap_range (parts : List (List Document)) :
    (List.range parts.length).flatMap (fun index => parts.getD index []) = parts.flatten := by
  rw [List.flatMap_def]
  congr 1
  refine List.ext_getElem (by simp) fun index h _ => ?_
  have hindex : index < parts.length := by simpa using h
  simp [hindex]

theorem inOrderOfNames_perm (parts : List (List Document)) :
    (inOrderOfNames parts).Perm parts.flatten :=
  flatMap_range parts ▸ (Shard.byName_perm _).flatMap_right _

/-- **The documents of shards are read in the order of the names** of these. -/
theorem HasShards.documents_eq (h : HasShards directory collection (parts.map (·.map Object.text)))
    (hplain : Plain collection) (hread : ∀ document ∈ parts.flatten, ReadsBack document) :
    documents directory collection = .ok (inOrderOfNames parts) := by
  have hlength : (parts.map (·.map Object.text)).length = parts.length := List.length_map _
  have hparts : ((Shard.byName parts.length).map (shardPath collection)).mapM
      (fun path => do Shard.read (← directory.readFile path)) =
        .ok ((Shard.byName parts.length).map fun index => parts.getD index []) := by
    rw [List.mapM_map, mapM_congr fun index hin => ?_]
    · exact List.mapM_pure
    · have hindex := Shard.mem_byName.mp hin
      have hfile := h.files index (hlength ▸ hindex)
      rw [List.getElem?_map, List.getElem?_eq_getElem hindex] at hfile
      have hpart : Shard.read (Shard.text (parts[index].map Object.text)) = .ok parts[index] :=
        Shard.read_text fun document hdocument =>
          hread document (List.mem_flatten.mpr ⟨_, List.getElem_mem hindex, hdocument⟩)
      rw [Function.comp_apply, Directory.readFile, hfile, List.getD_eq_getElem _ _ hindex]
      exact hpart
  unfold documents
  rw [h.shardPaths_eq hplain, hlength]
  exact bind_ok_iff.mpr ⟨_, rfl, bind_ok_iff.mpr ⟨_, hparts, rfl⟩⟩

/-- Four digits are enough to keep the order of documents. -/
theorem inOrderOfNames_eq (h : parts.length ≤ Shard.countMax) :
    inOrderOfNames parts = parts.flatten := by
  rw [inOrderOfNames, Shard.byName_eq_range_iff.mpr h, flatMap_range]

/-- **Beyond four digits the order of documents changes**, if no two of them are equal. -/
theorem inOrderOfNames_ne (hne : ∀ part ∈ parts, part ≠ []) (hnodup : parts.flatten.Nodup)
    (h : Shard.countMax < parts.length) : inOrderOfNames parts ≠ parts.flatten := by
  intro heq
  have hpart (index : Nat) (hindex : index < parts.length) :
      ∃ document, [document].Sublist (parts.getD index []) := by
    obtain ⟨document, rest, hcons⟩ :=
      List.exists_cons_of_ne_nil (hne _ (List.getElem_mem hindex))
    exact ⟨document, by simp [hindex, hcons]⟩
  obtain ⟨early, hearly⟩ := hpart 1001 (lt_trans (by decide) h)
  obtain ⟨late, hlate⟩ := hpart Shard.countMax h
  have hwritten : [early, late].Sublist parts.flatten := by
    have hpair := (Shard.sublist_range h).flatMap fun index => parts.getD index []
    rw [flatMap_range] at hpair
    exact (hearly.append hlate).trans (by simpa using hpair)
  have hread : [late, early].Sublist parts.flatten := by
    have hpair := (Shard.beyond_sublist_byName h).flatMap fun index => parts.getD index []
    rw [← heq]
    exact (hlate.append hearly).trans (by simpa [inOrderOfNames] using hpair)
  exact not_pair_sublist hnodup hwritten hread

/-- **What is read of packed documents**: all of them, and in their order if four digits are
enough. -/
theorem HasShards.exists_documents {shardMax : Nat} {written : List Document}
    {shards : List (List String)} (h : HasShards directory collection shards)
    (hplain : Plain collection)
    (hpack : Shard.pack shardMax (written.map Object.text) = .ok shards)
    (hread : ∀ document ∈ written, ReadsBack document) :
    ∃ found, documents directory collection = .ok found ∧ found.Perm written ∧
      (shards.length ≤ Shard.countMax → found = written) ∧
      (Shard.countMax < shards.length → written.Nodup → found ≠ written) := by
  obtain ⟨parts, rfl, rfl⟩ := Shard.exists_parts (Shard.flatten_pack hpack)
  have hne : ∀ part ∈ parts, part ≠ [] := by
    rintro _ hin rfl
    exact (Shard.filled_of_fill hpack).ne_nil [] (List.mem_map.mpr ⟨[], hin, rfl⟩) rfl
  rw [List.length_map]
  exact ⟨_, h.documents_eq hplain hread, inOrderOfNames_perm parts, inOrderOfNames_eq,
    fun hmany hnodup => inOrderOfNames_ne hne hnodup hmany⟩

/-- **Documents that can be packed are written** where names are told apart by points. -/
theorem exists_written {shardMax : Nat} {documents : List Document} {shards : List (List String)}
    (hplain : Plain collection) (honce : directory.Once) (hpointed : directory.Pointed)
    (hpack : Shard.pack shardMax (documents.map Object.text) = .ok shards) :
    ∃ after, writeDocuments shardMax collection documents directory = (.ok (), after) ∧
      HasShards after collection shards := by
  have hwrites : Ensures (writeDocuments shardMax collection documents) directory _ _ :=
    ensures_writeDocuments_shards hplain honce
  rcases hrun : writeDocuments shardMax collection documents directory with ⟨e | _, after⟩
  · have hfails := hwrites.of_error hrun hpointed
    rw [hpack] at hfails
    cases hfails
  · obtain ⟨_, hsame, hshards⟩ := hwrites.of_ok hrun
    rw [hpack] at hsame
    cases hsame
    exact ⟨after, rfl, hshards⟩

end Reading

end FileStore

/-! ### Documents with nothing but ids -/

/-- The document with nothing but a number as its id. -/
def numbered (id : Nat) : Document := [(idKey, .ofNat id)]

theorem quoted_idKey : quoted idKey = "\"" ++ idKey ++ "\"" := by decide

theorem toList_numbered (id : Nat) : (Object.text (numbered id)).toList =
    '\x7b' :: '"' :: (idKey.toList ++ ['"'] ++ ':' :: (Nat.toDigits 10 id ++ ['\x7d'])) := by
  simp [numbered, Object.text, Value.text, Value.fieldTexts, Value.ofNat, quoted_idKey,
    toList_text_int]

/-- **A document with nothing but an id is read back.** -/
theorem readsBack_numbered {id : Nat} (h : id < wordBound) : ReadsBack (numbered id) := by
  have hkey : readString 3 [] (idKey.toList ++ ['"']) = some (idKey, []) := by decide
  obtain ⟨name, hname, hstring⟩ := readString_closed hkey
  rw [List.append_nil] at hname
  have hfields (fuel depth : Nat) : readFields (fuel + 2) depth []
      ('"' :: (name ++ ':' :: (Nat.toDigits 10 id ++ ['\x7d', ']']))) =
        some (.object (numbered id), [']']) :=
    readFields_eq.mpr ⟨_, idKey, _, _, _, _, rfl, hstring _ _ (by simp; omega), rfl,
      readValue_toDigits h (by decide) [']'] [] nofun fuel _, rfl⟩
  have hdocument (fuel : Nat) : readValue (fuel + 3) (depthLimit - 1)
      ('\x7b' :: '"' :: (name ++ ':' :: (Nat.toDigits 10 id ++ ['\x7d', ']']))) =
        some (.object (numbered id), [']']) := by
    rw [readValue_eq]
    exact hfields fuel _
  refine Shard.read_eq_ok.mpr ⟨[.object (numbered id)],
    Shard.readRepeated?_text.mpr ⟨[], ?_, rfl⟩, rfl⟩
  rw [String.intercalate_singleton, toList_numbered, hname]
  simp only [List.cons_append, List.append_assoc, List.nil_append]
  exact readItems_eq.mpr ⟨_, _, hdocument _, rfl⟩

theorem byteSize_numbered (id : Nat) :
    (numbered id).byteSize = (Nat.toDigits 10 id).length + 7 := by
  have htext : Object.text (numbered id) =
      "\x7b\"id\":" ++ String.ofList (Nat.toDigits 10 id) ++ "\x7d" := by
    rw [← String.toList_inj, toList_numbered]
    simp [idKey]
  have hopen : "\x7b\"id\":".utf8ByteSize = 6 := by decide
  have hclose : "\x7d".utf8ByteSize = 1 := by decide
  rw [Object.byteSize, htext, String.utf8ByteSize_append, String.utf8ByteSize_append, hopen, hclose,
    String.utf8ByteSize_ofList, utf8Len_digits fun _ => isDigit_of_mem]
  omega

/-- The documents with the ids from one on. -/
def numberedTo (count : Nat) : List Document := (List.range count).map fun i => numbered (i + 1)

theorem mem_numberedTo {count : Nat} {document : Document} :
    document ∈ numberedTo count ↔ ∃ id, 1 ≤ id ∧ id ≤ count ∧ document = numbered id := by
  simp only [numberedTo, List.mem_map, List.mem_range]
  constructor
  · rintro ⟨i, hi, rfl⟩
    exact ⟨i + 1, by omega, hi, rfl⟩
  · rintro ⟨id, hleast, hmost, rfl⟩
    exact ⟨id - 1, by omega, by rw [Nat.sub_add_cancel hleast]⟩

theorem nodup_numberedTo (count : Nat) : (numberedTo count).Nodup := by
  refine List.nodup_range.map fun i j h => ?_
  have hids : (i : Int) = j := by simpa [numbered, Value.ofNat] using h
  exact Int.ofNat_inj.mp hids

namespace FileStore

/-! ### Writing and reading -/

/-- **Storage order survives as many shards as four digits can count**, and no more. Whatever a
store was used for before, when the documents of a plain collection were written, its shards are
found in the order of their numbers just if there are at most ten thousand of them. All documents
are read then. They are read in the order in which they were written if there are no more shards,
and in another order if there are more and no two documents are equal. Writing succeeds for all
documents that can be packed, if all collections have plain names. -/
theorem storage_order (shardMax : Nat) (calls : List StoreCall) {collection : String}
    (hplain : Plain collection) (documents : List Document) :
    (∀ after, writeDocuments shardMax collection documents
        (backend.after { shardMax } calls).directory = (.ok (), after) →
      ∃ shards, Shard.pack shardMax (documents.map Object.text) = .ok shards ∧
        (shardPaths after collection = .ok (firstShards collection shards.length) ↔
          shards.length ≤ Shard.countMax) ∧
        ((∀ document ∈ documents, ReadsBack document) →
          ∃ found, FileStore.documents after collection = .ok found ∧ found.Perm documents ∧
            (shards.length ≤ Shard.countMax → found = documents) ∧
            (Shard.countMax < shards.length → documents.Nodup → found ≠ documents))) ∧
    ((∀ call ∈ calls, Plain call.collection) →
      (∃ shards, Shard.pack shardMax (documents.map Object.text) = .ok shards) →
      ∃ after, writeDocuments shardMax collection documents
        (backend.after { shardMax } calls).directory = (.ok (), after)) := by
  have honce := once_after { shardMax } Directory.once_empty calls
  refine ⟨fun after hafter => ?_, fun hcalls ⟨shards, hpack⟩ => ?_⟩
  · have hwrites : Ensures (writeDocuments shardMax collection documents)
        (backend.after { shardMax } calls).directory _ _ :=
      ensures_writeDocuments_shards hplain honce
    obtain ⟨shards, hpack, hshards⟩ := hwrites.of_ok hafter
    exact ⟨shards, hpack, hshards.shardPaths_eq_iff hplain,
      hshards.exists_documents hplain hpack⟩
  · obtain ⟨after, hafter, -⟩ := exists_written hplain honce
      (pointed_after { shardMax } Directory.pointed_empty hcalls) hpack
    exact ⟨after, hafter⟩

/-- Two documents are read in their order where three were stored before. -/
theorem two_in_order : ∃ after,
    writeDocuments 14 "log" (numberedTo 2)
      (backend.after { shardMax := 14 } [.persist "log" (numberedTo 3)]).directory =
        (.ok (), after) ∧
    shardPaths after "log" = .ok (firstShards "log" 2) ∧
    FileStore.documents after "log" = .ok (numberedTo 2) := by
  have htwo : Shard.pack 14 ((numberedTo 2).map Object.text) =
      .ok [[(numbered 1).text], [(numbered 2).text]] := rfl
  have hread : ∀ document ∈ numberedTo 2, ReadsBack document := by
    intro document hin
    obtain ⟨id, -, hmost, rfl⟩ := mem_numberedTo.mp hin
    exact readsBack_numbered (lt_of_le_of_lt hmost (by decide))
  obtain ⟨hwritten, hwrites⟩ := storage_order 14 [.persist "log" (numberedTo 3)]
    (show Plain "log" by decide) (numberedTo 2)
  obtain ⟨after, hafter⟩ := hwrites (List.forall_mem_singleton.mpr (by decide)) ⟨_, htwo⟩
  obtain ⟨shards, hpack, hpaths, hdocuments⟩ := hwritten after hafter
  rw [htwo] at hpack
  cases hpack
  obtain ⟨found, hfound, -, hsame, -⟩ := hdocuments hread
  exact ⟨after, hafter, hpaths.mpr (by decide), hfound.trans (congrArg _ (hsame (by decide)))⟩

/-- **Ten thousand documents and one, each in a shard of its own**, are written without an error,
but the shards are not found in the order of their numbers, and the documents are not read in the
order in which they were written. -/
theorem tenThousandOne_out_of_order : ∃ after shards,
    writeDocuments 14 "log" (numberedTo 10001) {} = (.ok (), after) ∧
    Shard.pack 14 ((numberedTo 10001).map Object.text) = .ok shards ∧ shards.length = 10001 ∧
    shardPaths after "log" ≠ .ok (firstShards "log" shards.length) ∧
    FileStore.documents after "log" ≠ .ok (numberedTo 10001) := by
  have hsize : ∀ document ∈ numberedTo 10001, 8 ≤ document.byteSize ∧ document.byteSize ≤ 12 := by
    intro document hin
    obtain ⟨id, hleast, hmost, rfl⟩ := mem_numberedTo.mp hin
    have hpos : 0 < (Nat.toDigits 10 id).length := List.length_pos_of_ne_nil Nat.toDigits_ne_nil
    have hdigits : (Nat.toDigits 10 id).length ≤ 5 :=
      (Nat.length_toDigits_le_iff (by decide) (by decide)).mpr (by omega)
    rw [byteSize_numbered]
    omega
  obtain ⟨shards, hpack⟩ := Shard.exists_pack_of_fits fun document hin =>
    show document.FitsShard 14 from (hsize document hin).2
  have hlength : shards.length = 10001 := by
    have hall : ((numberedTo 10001).map Object.text).length = 10001 := by simp [numberedTo]
    refine Nat.le_antisymm (hall ▸ Shard.length_pack_le hpack) ?_
    refine hall ▸ Shard.length_le_length_pack (Shard.flatten_pack hpack) (Shard.size_pack_le hpack)
      fun text hin => ?_
    obtain ⟨document, hdocument, rfl⟩ := List.mem_map.mp hin
    have hleast : 8 ≤ document.text.utf8ByteSize := (hsize document hdocument).1
    unfold shardFraming
    omega
  have hmany : Shard.countMax < shards.length := by
    rw [hlength]
    decide
  have hplain : Plain "log" := by decide
  obtain ⟨after, hafter, hshards⟩ :=
    exists_written hplain Directory.once_empty Directory.pointed_empty hpack
  obtain ⟨found, hfound, -, -, hother⟩ :=
    hshards.exists_documents hplain hpack fun document hin => by
      obtain ⟨id, -, hmost, rfl⟩ := mem_numberedTo.mp hin
      exact readsBack_numbered (lt_of_le_of_lt hmost (by decide))
  refine ⟨after, shards, hafter, hpack, hlength, fun hpaths => ?_, fun hdocuments => ?_⟩
  · exact absurd ((hshards.shardPaths_eq_iff hplain).mp hpaths) (Nat.not_le_of_lt hmany)
  · rw [hfound, Except.ok.injEq] at hdocuments
    exact hother hmany (nodup_numberedTo _) hdocuments

end FileStore

end DocumentDb
