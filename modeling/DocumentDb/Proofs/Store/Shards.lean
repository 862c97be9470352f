import DocumentDb.Proofs.Json.Locality
import DocumentDb.Proofs.Outcome
import DocumentDb.Store.Shard

/-!
# Shards as texts

What is written into a shard is read from it again, if each of its documents alone is read back from
a shard of its own: reading a document does not depend on what stands behind it. Packing spreads
documents over shards without changing their order, and fails if and only if one of them is too
large.
-/

namespace DocumentDb

open Json

/-! ### Texts of objects and arrays -/

theorem mem_skipSpace {c : Char} {text : List Char} (h : c ∈ text) (hc : isSpace c = false) :
    c ∈ skipSpace text := by
  rw [skipSpace]
  rw [← List.takeWhile_append_dropWhile (p := isSpace) (l := text)] at h
  rcases List.mem_append.mp h with hspace | hrest
  · have hall := List.all_takeWhile (p := isSpace) (l := text)
    rw [List.all_eq_true.mp hall c hspace] at hc
    cases hc
  · exact hrest

theorem distinctItems_eq_map (items : List Value) : distinctItems items = items.map distinct := by
  induction items with
  | nil => rw [distinctItems, List.map_nil]
  | cons item rest ih => rw [distinctItems, ih, List.map_cons]

theorem readRepeated?_eq_some {text : String} {value : Value} :
    readRepeated? text = some value ↔ ∃ rest,
      readValue (2 * text.toList.length + 2) depthLimit text.toList = some (value, rest) ∧
        skipSpace rest = [] := by
  unfold readRepeated?
  cases hread : readValue (2 * text.toList.length + 2) depthLimit text.toList with
  | none => simp [hread]
  | some found =>
    obtain ⟨read, rest⟩ := found
    by_cases hrest : skipSpace rest = [] <;> simp [hread, hrest, and_assoc]

theorem Object.toList_text (fields : Object) :
    ∃ inner, (Object.text fields).toList = '\x7b' :: (inner ++ ['\x7d']) := by
  refine ⟨(",".intercalate (Value.fieldTexts fields)).toList, ?_⟩
  simp [Object.text, Value.text]

namespace Shard

theorem toList_text (texts : List String) :
    (text texts).toList = '[' :: ((",".intercalate texts).toList ++ [']']) := by
  simp [text]

theorem toList_intercalate_cons_cons (first second : String) (rest : List String) :
    (",".intercalate (first :: second :: rest)).toList =
      first.toList ++ ',' :: (",".intercalate (second :: rest)).toList := by
  simp [String.intercalate_cons_cons]

/-- An array is read by its items. -/
theorem readRepeated?_text {texts : List String} {value : Value} :
    readRepeated? (text texts) = some value ↔ ∃ rest,
      opened ']' (.array [])
        (readItems (2 * (",".intercalate texts).toList.length + 5) (depthLimit - 1) [])
        ((",".intercalate texts).toList ++ [']']) = some (value, rest) ∧ skipSpace rest = [] := by
  rw [readRepeated?_eq_some, toList_text, readValue_eq]
  have hlength : ∀ body : List Char,
      2 * ('[' :: (body ++ [']'])).length + 1 = 2 * body.length + 5 := by
    intro body; simp; omega
  rw [hlength]
  rfl

theorem mapM_object {items : List Value} {documents : List Document} :
    (items.mapM fun item => match item with
      | .object document => (.ok document : Except Error Document)
      | _ => .error .json) = .ok documents ↔ items = documents.map .object := by
  induction items generalizing documents with
  | nil =>
    cases documents with
    | nil => simp [pure, Except.pure]
    | cons document rest => simp [pure, Except.pure]
  | cons item rest ih =>
    rw [List.mapM_cons, bind_ok_iff]
    constructor
    · rintro ⟨document, hitem, h⟩
      obtain ⟨others, hrest, h⟩ := bind_ok_iff.mp h
      cases h
      rw [ih.mp hrest, List.map_cons]
      cases item <;> cases hitem
      rfl
    · intro h
      cases documents with
      | nil => cases h
      | cons document others =>
        rw [List.map_cons, List.cons.injEq] at h
        obtain ⟨rfl, hrest⟩ := h
        exact ⟨document, rfl, bind_ok_iff.mpr ⟨others, ih.mpr hrest, rfl⟩⟩

theorem read_eq_ok {text : String} {documents : List Document} :
    read text = .ok documents ↔ ∃ items, readRepeated? text = some (.array items) ∧
      distinctItems items = documents.map .object := by
  unfold read read?
  cases readRepeated? text with
  | none => simp
  | some value =>
    cases value with
    | array items =>
      simp only [Option.map_some, distinct, Option.some.injEq, Value.array.injEq, exists_eq_left']
      exact mapM_object
    | _ => simp [distinct]

end Shard

/-! ### Reading shards -/

/-- **A document is read back**: the text of a shard with nothing else is decoded to it. -/
def ReadsBack (document : Document) : Prop :=
  Shard.read (Shard.text [Object.text document]) = .ok [document]

theorem length_of_readItems {fuel depth : Nat} {done items : List Value} {text rest : List Char}
    (h : readItems fuel depth done text = some (.array items, rest)) :
    done.length < items.length := by
  induction fuel generalizing done text with
  | zero => rw [readItems] at h; cases h
  | succ fuel ih =>
    obtain ⟨item, behind, _, hbehind⟩ := readItems_eq.mp h
    unfold afterItem at hbehind
    split at hbehind
    · have := ih hbehind
      simp only [List.length_cons] at this
      omega
    · cases hbehind
      simp
    · cases hbehind

/-- What stands behind a text that ends with a brace, up to a bracket, begins with the bracket. -/
theorem eq_of_skipSpace (inner : List Char) {read behind rest : List Char}
    (h : inner ++ ['\x7d'] ++ [']'] = read ++ behind) (hskip : skipSpace behind = ']' :: rest)
    (hrest : skipSpace rest = []) : read = inner ++ ['\x7d'] ∧ behind = [']'] := by
  have hbrace : '\x7d' ∉ behind := by
    intro hin
    have hin := mem_skipSpace hin (by decide)
    rw [hskip] at hin
    have hin := mem_skipSpace ((List.mem_cons.mp hin).resolve_left (by decide)) (by decide)
    rw [hrest] at hin
    cases hin
  rcases List.append_eq_append_iff.mp h with ⟨more, hread, hbehind⟩ | ⟨more, hinner, hbehind⟩
  · cases more with
    | nil => exact ⟨by simpa using hread, by simpa using hbehind.symm⟩
    | cons c more =>
      obtain ⟨-, hempty⟩ : ']' = c ∧ more ++ behind = [] := by simpa using hbehind
      rw [(List.append_eq_nil_iff.mp hempty).2] at hskip
      cases hskip
  · rcases List.eq_nil_or_concat more with rfl | ⟨front, last, rfl⟩
    · exact ⟨by simpa using hinner.symm, by simpa using hbehind⟩
    · have hlast : '\x7d' = last := by
        have := congrArg List.getLast? hinner
        simpa using this
      rw [hbehind, hlast] at hbrace
      simp at hbrace

/-- A document that is read back is read alike with anything behind it and with more fuel. -/
theorem ReadsBack.item {document : Document} (h : ReadsBack document) :
    ∃ item, distinct item = .object document ∧ ∀ (more : Nat) (other : List Char),
      2 * (Object.text document).toList.length + 4 ≤ more →
        readValue more (depthLimit - 1) ((Object.text document).toList ++ other) =
          some (item, other) := by
  obtain ⟨items, hrepeated, hdistinct⟩ := Shard.read_eq_ok.mp h
  obtain ⟨rest, hopened, hrest⟩ := Shard.readRepeated?_text.mp hrepeated
  obtain ⟨inner, hinner⟩ := Object.toList_text document
  rw [String.intercalate_singleton] at hopened
  have hitems : readItems (2 * (Object.text document).toList.length + 5) (depthLimit - 1) []
      ((Object.text document).toList ++ [']']) = some (.array items, rest) := by
    rw [hinner] at hopened ⊢
    exact hopened
  obtain ⟨item, behind, hitem, hbehind⟩ := readItems_eq.mp hitems
  -- a comma behind the first item would make a second one
  obtain ⟨hskip, rfl⟩ : skipSpace behind = ']' :: rest ∧ items = [item] := by
    unfold afterItem at hbehind
    split at hbehind
    · have hlength := length_of_readItems hbehind
      have hone := congrArg List.length hdistinct
      simp only [distinctItems_eq_map, List.length_map, List.length_singleton] at hlength hone
      omega
    · next hskip => cases hbehind; exact ⟨hskip, rfl⟩
    · cases hbehind
  have hobject : distinct item = .object document := by
    simpa [distinctItems_eq_map] using hdistinct
  obtain ⟨read, hread, hlocal⟩ := (local_all _).1 _ _ _ _ hitem
  obtain ⟨hsame, rfl⟩ : read = (Object.text document).toList ∧ behind = [']'] := by
    rw [hinner] at hread ⊢
    exact eq_of_skipSpace ('\x7b' :: inner) hread hskip hrest
  rw [← hsame] at hlocal ⊢
  refine ⟨item, hobject, fun more other hmore => hlocal more other hmore (.inl ?_)⟩
  rintro n rfl
  rw [distinct] at hobject
  · cases hobject
  · nofun
  · nofun

/-- Items that are still to come are read from the texts of documents that are read back. -/
theorem readItems_texts {documents : List Document} (hne : documents ≠ [])
    (hdocuments : ∀ document ∈ documents, ReadsBack document) {fuel : Nat} (done : List Value)
    (hfuel : 2 * (",".intercalate (documents.map Object.text)).toList.length + 5 ≤ fuel) :
    ∃ items, items.map distinct = documents.map .object ∧
      readItems fuel (depthLimit - 1) done
        ((",".intercalate (documents.map Object.text)).toList ++ [']']) =
          some (.array (done.reverse ++ items), []) := by
  induction documents generalizing fuel done with
  | nil => exact absurd rfl hne
  | cons document rest ih =>
    obtain ⟨item, hitem, hread⟩ := (hdocuments document List.mem_cons_self).item
    obtain ⟨more, rfl⟩ : ∃ more, fuel = more + 1 := ⟨fuel - 1, by omega⟩
    cases rest with
    | nil =>
      simp only [List.map_cons, List.map_nil, String.intercalate_singleton] at hfuel ⊢
      refine ⟨[item], by rw [List.map_singleton, hitem], ?_⟩
      refine readItems_eq.mpr ⟨item, [']'], hread _ _ (by omega), ?_⟩
      rw [← List.reverse_cons]
      rfl
    | cons second rest =>
      simp only [List.map_cons, Shard.toList_intercalate_cons_cons, List.length_append,
        List.length_cons, List.append_assoc, List.cons_append] at ih hfuel ⊢
      obtain ⟨items, hitems, hothers⟩ := ih (List.cons_ne_nil _ _)
        (fun other hother => hdocuments other (List.mem_cons_of_mem _ hother)) (item :: done)
        (show _ ≤ more by omega)
      refine ⟨item :: items, by rw [List.map_cons, hitem, hitems], ?_⟩
      refine readItems_eq.mpr ⟨item, _, hread _ _ (by omega), ?_⟩
      rw [List.reverse_cons, List.append_assoc] at hothers
      exact hothers

/-- **Documents that are read back are read together**, in their order. -/
theorem Shard.read_text {documents : List Document}
    (hdocuments : ∀ document ∈ documents, ReadsBack document) :
    Shard.read (Shard.text (documents.map Object.text)) = .ok documents := by
  rw [Shard.read_eq_ok]
  cases documents with
  | nil =>
    refine ⟨[], Shard.readRepeated?_text.mpr ⟨[], rfl, rfl⟩, ?_⟩
    rw [distinctItems_eq_map]
    rfl
  | cons document rest =>
    obtain ⟨items, hitems, hread⟩ :=
      readItems_texts (List.cons_ne_nil _ _) hdocuments [] (Nat.le_refl _)
    refine ⟨items, Shard.readRepeated?_text.mpr ⟨[], ?_, rfl⟩,
      (distinctItems_eq_map items).trans hitems⟩
    obtain ⟨inner, hinner⟩ := Object.toList_text document
    have hopen : ∃ tail, (",".intercalate ((document :: rest).map Object.text)).toList ++ [']'] =
        '\x7b' :: tail := by
      cases rest with
      | nil => simp [hinner]
      | cons second rest =>
        rw [List.map_cons, List.map_cons, Shard.toList_intercalate_cons_cons, hinner]
        exact ⟨_, rfl⟩
    obtain ⟨tail, htail⟩ := hopen
    rw [htail] at hread ⊢
    exact hread

/-! ### Packing -/

/-- A document fits into a shard. -/
def Object.FitsShard (shardMax : Nat) (document : Document) : Prop :=
  document.byteSize ≤ documentMax shardMax

/-- The error of a document that is too large. -/
inductive Error.TooLarge : Error → Prop
  | document {size limit shardMax : Nat} : TooLarge (.capacity (.documentSize size limit shardMax))

namespace Shard
variable {shardMax : Nat}

/-- Texts are spread over shards in their order, or one of them is too large for a shard. -/
theorem fill_cases (current texts : List String) :
    (∃ shards, fill shardMax current texts = .ok shards ∧ shards.flatten = current ++ texts ∧
      ∀ text ∈ texts, text.utf8ByteSize ≤ documentMax shardMax) ∨
    ∃ text ∈ texts, documentMax shardMax < text.utf8ByteSize ∧
      fill shardMax current texts = .error (.capacity (.shardSize text.utf8ByteSize shardMax)) := by
  induction texts generalizing current with
  | nil =>
    left
    cases current with
    | nil => exact ⟨[], rfl, rfl, nofun⟩
    | cons first rest => exact ⟨[first :: rest], rfl, by simp, nofun⟩
  | cons text rest ih =>
    rw [fill]
    split_ifs with hlarge hfull
    · exact Or.inr ⟨text, List.mem_cons_self, hlarge, rfl⟩
    · rcases ih [text] with ⟨shards, hshards, hflat, hfit⟩ | ⟨other, hin, hother, hfail⟩
      · refine Or.inl ⟨current :: shards, by rw [hshards]; rfl, by simp [hflat], ?_⟩
        exact List.forall_mem_cons.mpr ⟨Nat.le_of_not_lt hlarge, hfit⟩
      · exact Or.inr ⟨other, List.mem_cons_of_mem _ hin, hother, by rw [hfail]; rfl⟩
    · rcases ih (current ++ [text]) with
        ⟨shards, hshards, hflat, hfit⟩ | ⟨other, hin, hother, hfail⟩
      · refine Or.inl ⟨shards, hshards, by simp [hflat], ?_⟩
        exact List.forall_mem_cons.mpr ⟨Nat.le_of_not_lt hlarge, hfit⟩
      · exact Or.inr ⟨other, List.mem_cons_of_mem _ hin, hother, hfail⟩

/-- **Packing fails if and only if a text is too large for a shard.** -/
theorem exists_pack_iff {texts : List String} : (∃ shards, pack shardMax texts = .ok shards) ↔
    ∀ text ∈ texts, text.utf8ByteSize ≤ documentMax shardMax := by
  unfold pack
  rcases fill_cases [] texts with ⟨shards, hfill, -, hfit⟩ | ⟨text, hin, hlarge, hfill⟩
  · exact ⟨fun _ => hfit, fun _ => ⟨shards, hfill⟩⟩
  · rw [hfill]
    exact ⟨nofun, fun hfit => absurd (hfit text hin) (Nat.not_le_of_lt hlarge)⟩

/-- Documents are packed if each of them fits. -/
theorem exists_pack_of_fits {documents : List Document}
    (h : ∀ document ∈ documents, document.FitsShard shardMax) :
    ∃ shards, pack shardMax (documents.map Object.text) = .ok shards := by
  rw [exists_pack_iff]
  intro text hin
  obtain ⟨document, hmem, rfl⟩ := List.mem_map.mp hin
  exact h document hmem

theorem exists_pack_of_subset {texts others : List String}
    (h : ∃ shards, pack shardMax texts = .ok shards) (hsubset : others ⊆ texts) :
    ∃ shards, pack shardMax others = .ok shards :=
  exists_pack_iff.mpr fun text hin => exists_pack_iff.mp h text (hsubset hin)

theorem length_fill_le {current texts : List String} {shards : List (List String)}
    (h : fill shardMax current texts = .ok shards) :
    shards.length ≤ texts.length + if current.isEmpty then 0 else 1 := by
  induction texts generalizing current shards with
  | nil =>
    cases current with
    | nil => cases h; exact Nat.le_refl _
    | cons first rest => cases h; exact Nat.le_refl _
  | cons text rest ih =>
    rw [fill] at h
    split_ifs at h with hlarge hfull
    · obtain ⟨others, hothers, heq⟩ := bind_ok_iff.mp h
      cases heq
      have hle := ih hothers
      have hcurrent : current.isEmpty = false := by
        rw [Bool.and_eq_true] at hfull
        simpa using hfull.1
      simp only [List.isEmpty_cons, hcurrent, List.length_cons] at hle ⊢
      omega
    · have hle := ih h
      have hnew : (current ++ [text]).isEmpty = false := by simp
      rw [hnew] at hle
      simp only [List.length_cons] at hle ⊢
      split_ifs at hle ⊢ <;> omega

/-- There are at most as many shards as documents. -/
theorem length_pack_le {texts : List String} {shards : List (List String)}
    (h : pack shardMax texts = .ok shards) : shards.length ≤ texts.length :=
  length_fill_le h

theorem pack_of_large {texts : List String}
    (h : ∃ text ∈ texts, documentMax shardMax < text.utf8ByteSize) :
    ∃ size, pack shardMax texts = .error (.capacity (.shardSize size shardMax)) := by
  unfold pack
  rcases fill_cases [] texts with ⟨shards, -, -, hfit⟩ | ⟨text, -, -, hfill⟩
  · obtain ⟨text, hin, hlarge⟩ := h
    exact absurd (hfit text hin) (Nat.not_le_of_lt hlarge)
  · exact ⟨_, hfill⟩

/-- Shards of the texts of documents are the texts of the parts of their list. -/
theorem exists_parts {shards : List (List String)} {documents : List Document}
    (h : shards.flatten = documents.map Object.text) :
    ∃ parts : List (List Document), shards = parts.map (·.map Object.text) ∧
      parts.flatten = documents := by
  induction shards generalizing documents with
  | nil => exact ⟨[], rfl, by simpa using h.symm⟩
  | cons shard rest ih =>
    obtain ⟨first, others, rfl, rfl, hothers⟩ := List.map_eq_append_iff.mp h.symm
    obtain ⟨parts, rfl, rfl⟩ := ih hothers.symm
    exact ⟨first :: parts, rfl, rfl⟩

/-- Packing does not change the order of texts. -/
theorem flatten_pack {texts : List String} {shards : List (List String)}
    (h : pack shardMax texts = .ok shards) : shards.flatten = texts := by
  rcases fill_cases [] texts with ⟨_, hfill, hflat, -⟩ | ⟨_, _, _, hfill⟩
  · rw [pack, hfill] at h
    cases h
    exact hflat
  · rw [pack, hfill] at h
    cases h

/-- **What is packed is read again**, shard by shard. -/
theorem read_packed {documents : List Document} {shards : List (List String)}
    (hpack : pack shardMax (documents.map Object.text) = .ok shards)
    (hdocuments : ∀ document ∈ documents, ReadsBack document) :
    ∃ parts : List (List Document), (shards.map text).mapM read = .ok parts ∧
      parts.flatten = documents := by
  obtain ⟨parts, rfl, rfl⟩ := exists_parts (flatten_pack hpack)
  refine ⟨parts, ?_, rfl⟩
  clear hpack
  induction parts with
  | nil => rfl
  | cons part rest ih =>
    have hpart : read (text (part.map Object.text)) = .ok part :=
      read_text fun document hin => hdocuments document (by simp [hin])
    rw [List.map_cons, List.map_cons, List.mapM_cons, hpart, ih fun document hin =>
      hdocuments document (List.mem_append_right _ hin)]
    rfl

end Shard

end DocumentDb
