import DocumentDb.Proofs.Store.Sizes
import Mathlib.Algebra.Order.BigOperators.Group.List
import Mathlib.Data.List.Chain

/-!
# Packing into the fewest shards

A shard is left when the next document does not fit into it any more, so no document fits into the
shard before its own (`Overflows`). Any other split of the documents falls behind: after as many
shards it has not got any further, since a shard of it that did would hold a whole packed shard and
the document that was too much for it.

* `Shard.pack_fewest`: what packing gives, for every list of documents and every limit.
-/

namespace DocumentDb.Shard

variable {shardMax : Nat}

/-! ### Shards that are full -/

theorem size_le_of_sublist {texts others : List String} (h : texts.Sublist others) :
    size texts ≤ size others := by
  have hsum : (texts.map (·.utf8ByteSize)).sum ≤ (others.map (·.utf8ByteSize)).sum :=
    (h.map _).sum_le_sum fun _ _ => Nat.zero_le _
  have hlength := h.length_le
  rw [List.sum_eq_foldr, List.sum_eq_foldr] at hsum
  unfold size
  omega

/-- **The texts of a shard are too much for the shard before it**: none of them fits there, behind
those that stand in front of it. -/
def Overflows (shardMax : Nat) (shard next : List String) : Prop :=
  ∀ front text rest, next = front ++ text :: rest → shardMax < size (shard ++ (front ++ [text]))

theorem overflows_cons {shard : List String} {first : String} (rest : List String)
    (h : shardMax < size (shard ++ [first])) : Overflows shardMax shard (first :: rest) := by
  intro front text behind heq
  refine h.trans_le (size_le_of_sublist (List.Sublist.append_left ?_ shard))
  rw [List.singleton_sublist]
  cases front with
  | nil => exact (List.cons.inj heq).1 ▸ List.mem_singleton_self _
  | cons other front => exact (List.cons.inj heq).1 ▸ List.mem_cons_self

/-- **Shards that were filled one after the other**, the first one beginning with `current`. -/
structure Filled (shardMax : Nat) (current : List String) (shards : List (List String)) : Prop where
  ne_nil : ∀ shard ∈ shards, shard ≠ []
  full : shards.IsChain (Overflows shardMax)
  begins : current ≠ [] → ∃ more rest, shards = (current ++ more) :: rest

theorem filled_of_fill {current texts : List String} {shards : List (List String)}
    (h : fill shardMax current texts = .ok shards) : Filled shardMax current shards := by
  induction texts generalizing current shards with
  | nil =>
    cases current with
    | nil =>
      cases h
      exact ⟨nofun, .nil, fun hne => absurd rfl hne⟩
    | cons first rest =>
      cases h
      exact ⟨by simp, .singleton _, fun _ => ⟨[], [], by simp⟩⟩
  | cons text rest ih =>
    rw [fill] at h
    split_ifs at h with hlarge hfull
    · -- the shard is left, and the text begins the next one
      obtain ⟨hne, hroom⟩ : current ≠ [] ∧ shardMax < size (current ++ [text]) := by
        simpa using hfull
      obtain ⟨others, hothers, heq⟩ := bind_ok_iff.mp h
      cases heq
      obtain ⟨hnil, hchain, hbegins⟩ := ih hothers
      obtain ⟨more, behind, rfl⟩ := hbegins (List.cons_ne_nil _ _)
      refine ⟨List.forall_mem_cons.mpr ⟨hne, hnil⟩, ?_, fun _ => ⟨[], _, by rw [List.append_nil]⟩⟩
      exact .cons_cons (overflows_cons more hroom) hchain
    · obtain ⟨hnil, hchain, hbegins⟩ := ih h
      refine ⟨hnil, hchain, fun _ => ?_⟩
      obtain ⟨more, behind, rfl⟩ := hbegins (by simp)
      exact ⟨text :: more, behind, by simp⟩

/-! ### Other splits -/

/-- **A split into shards of limited size gets no further than filled shards do**: what is left
behind the first shard of each, the filled ones have less of it. -/
theorem flatten_suffix_of_filled {shard other : List String} {rest others : List (List String)}
    (hfull : (shard :: rest).IsChain (Overflows shardMax)) (hne : ∀ next ∈ rest, next ≠ [])
    (hfit : size other ≤ shardMax)
    (h : (shard :: rest).flatten <:+ (other :: others).flatten) :
    rest.flatten <:+ others.flatten := by
  cases rest with
  | nil => exact List.nil_suffix
  | cons next rest =>
    obtain ⟨first, tail, rfl⟩ := List.exists_cons_of_ne_nil (hne next List.mem_cons_self)
    have hover := (List.isChain_cons_cons.mp hfull).1 [] first tail rfl
    rw [List.flatten_cons, List.flatten_cons] at h
    have hothers : others.flatten <:+ other ++ others.flatten := List.suffix_append other _
    rcases List.suffix_or_suffix_of_suffix ((List.suffix_append shard _).trans h) hothers with
      hless | hmore
    · exact hless
    rcases List.suffix_cons_iff.mp hmore with heq | ⟨between, hbetween⟩
    · exact heq ▸ List.suffix_rfl
    · -- the other split got further, so its shard holds the first text that was too much
      have hheld : shard ++ first :: between <:+ other := by
        rw [List.append_eq] at hbetween
        rw [List.cons_append, ← hbetween, ← List.cons_append, ← List.append_assoc] at h
        exact List.suffix_append_self_iff.mp h
      have hbegins : [first].Sublist (first :: between) := by simp
      have hsize := size_le_of_sublist (hbegins.append_left shard)
      have hwhole := size_le_of_sublist hheld.sublist
      rw [List.nil_append] at hover
      omega

/-- **No other split has fewer shards.** -/
theorem length_le_of_suffix {shards others : List (List String)}
    (hfull : shards.IsChain (Overflows shardMax)) (hne : ∀ shard ∈ shards, shard ≠ [])
    (hfit : ∀ other ∈ others, size other ≤ shardMax) (h : shards.flatten <:+ others.flatten) :
    shards.length ≤ others.length := by
  induction shards generalizing others with
  | nil => exact Nat.zero_le _
  | cons shard rest ih =>
    obtain ⟨hshard, hne⟩ := List.forall_mem_cons.mp hne
    cases others with
    | nil => simp [hshard] at h
    | cons other others =>
      obtain ⟨hother, hfit⟩ := List.forall_mem_cons.mp hfit
      have hbehind := flatten_suffix_of_filled hfull hne hother h
      exact Nat.succ_le_succ (ih (List.isChain_of_isChain_cons hfull) hne hfit hbehind)

/-- Texts of which no two fit into one shard have shards of their own. -/
theorem length_le_length_pack {texts : List String} {shards : List (List String)}
    (hflatten : shards.flatten = texts) (hsizes : ∀ shard ∈ shards, size shard ≤ shardMax)
    (hlarge : ∀ text ∈ texts, shardMax < 2 * text.utf8ByteSize + 1 + shardFraming) :
    texts.length ≤ shards.length := by
  have hone : ∀ shard ∈ shards, shard.length ≤ 1 := by
    intro shard hin
    by_contra hmany
    obtain ⟨first, second, rest, rfl⟩ : ∃ first second rest, shard = first :: second :: rest := by
      match shard, hmany with
      | first :: second :: rest, _ => exact ⟨first, second, rest, rfl⟩
      | [], h | [_], h => simp at h
    have hfirst := hlarge first (hflatten ▸ List.mem_flatten.mpr ⟨_, hin, by simp⟩)
    have hsecond := hlarge second (hflatten ▸ List.mem_flatten.mpr ⟨_, hin, by simp⟩)
    have htwo : [first, second].Sublist (first :: second :: rest) := by simp
    have hsize := (size_le_of_sublist htwo).trans (hsizes _ hin)
    simp only [size, List.map_cons, List.map_nil, List.foldr_cons, List.foldr_nil,
      List.length_cons, List.length_nil] at hsize
    omega
  rw [← hflatten, List.length_flatten]
  simpa using List.sum_le_card_nsmul (shards.map List.length) 1 (by simpa using hone)

/-! ### Packing documents -/

/-- The JSON array of documents. -/
def arrayText (documents : List Document) : String := Value.text (.array (documents.map .object))

/-- A shard is the array of its documents. -/
theorem text_eq (documents : List Document) :
    text (documents.map Object.text) = arrayText documents := by
  have hobject : Value.text ∘ .object = Object.text := rfl
  rw [text, arrayText, Value.text, Value.itemTexts_eq, List.map_map, hobject]

/-- **A split of documents into shards** of limited size. -/
structure IsSplit (shardMax : Nat) (documents : List Document) (parts : List (List Document)) :
    Prop where
  flatten : parts.flatten = documents
  fits : ∀ part ∈ parts, (arrayText part).utf8ByteSize ≤ shardMax

theorem IsSplit.size_le {documents : List Document} {parts : List (List Document)}
    (h : IsSplit shardMax documents parts) :
    ∀ shard ∈ parts.map (·.map Object.text), size shard ≤ shardMax := by
  intro shard hin
  obtain ⟨part, hpart, rfl⟩ := List.mem_map.mp hin
  rw [← utf8ByteSize_text, text_eq]
  exact h.fits part hpart

/-- **Packing is exact, and needs the fewest shards.** It succeeds if and only if each document fits
into a shard of its own. Then the shards are arrays of one document or more within the limit, and
hold the documents in their order. No document fits into the shard before its own, behind those in
front of it, so no other split of the documents has fewer shards. What a document may take of a
shard is never less than nothing. -/
theorem pack_fewest (shardMax : Nat) (documents : List Document) :
    ((∃ shards, pack shardMax (documents.map Object.text) = .ok shards) ↔
      ∀ document ∈ documents, document.byteSize ≤ documentMax shardMax) ∧
    (∀ shards, pack shardMax (documents.map Object.text) = .ok shards →
      ∃ parts, shards.map text = parts.map arrayText ∧
        IsSplit shardMax documents parts ∧ (∀ part ∈ parts, part ≠ []) ∧
        parts.IsChain (fun part next => ∀ front document rest, next = front ++ document :: rest →
          shardMax < (arrayText (part ++ (front ++ [document]))).utf8ByteSize) ∧
        ∀ others, IsSplit shardMax documents others → parts.length ≤ others.length) ∧
    (documentMax shardMax : Int) = max 0 (shardMax - shardFraming) := by
  refine ⟨?_, fun shards hpack => ?_, ?_⟩
  · rw [exists_pack_iff, List.forall_mem_map]
    rfl
  · have hsizes := size_pack_le hpack
    have hfilled := filled_of_fill hpack
    obtain ⟨parts, rfl, hflatten⟩ := exists_parts (flatten_pack hpack)
    have hsplit : IsSplit shardMax documents parts := by
      refine ⟨hflatten, fun part hin => ?_⟩
      rw [← text_eq, utf8ByteSize_text]
      exact hsizes _ (List.mem_map_of_mem hin)
    refine ⟨parts, ?_, hsplit, fun part hin => ?_, ?_, fun others hothers => ?_⟩
    · rw [List.map_map]
      exact List.map_congr_left fun part _ => text_eq part
    · exact fun hnil => hfilled.ne_nil _ (List.mem_map_of_mem hin) (by rw [hnil, List.map_nil])
    · refine ((List.isChain_map _).mp hfilled.full).imp fun part next hover => ?_
      rintro front document rest rfl
      have hsize := hover (front.map Object.text) document.text (rest.map Object.text) (by simp)
      rw [← text_eq, utf8ByteSize_text]
      simpa using hsize
    · have hsame : (parts.map (·.map Object.text)).flatten =
          (others.map (·.map Object.text)).flatten := by
        rw [← List.map_flatten, ← List.map_flatten, hsplit.flatten, hothers.flatten]
      simpa using length_le_of_suffix hfilled.full hfilled.ne_nil hothers.size_le
        (hsame ▸ List.suffix_rfl)
  · unfold documentMax
    omega

/-- Two documents of eight bytes fill a shard of 19 bytes, and need two shards of 18 bytes. -/
theorem pack_fewest_boundary :
    pack 19 ["\x7b\"id\":1\x7d", "\x7b\"id\":2\x7d"] =
      .ok [["\x7b\"id\":1\x7d", "\x7b\"id\":2\x7d"]] ∧
    pack 18 ["\x7b\"id\":1\x7d", "\x7b\"id\":2\x7d"] =
      .ok [["\x7b\"id\":1\x7d"], ["\x7b\"id\":2\x7d"]] ∧
    ∀ others, IsSplit 18 [[("id", .ofNat 1)], [("id", .ofNat 2)]] others → 2 ≤ others.length := by
  have htwo : pack 18 ["\x7b\"id\":1\x7d", "\x7b\"id\":2\x7d"] =
      .ok [["\x7b\"id\":1\x7d"], ["\x7b\"id\":2\x7d"]] := rfl
  refine ⟨rfl, htwo, fun others hothers => ?_⟩
  obtain ⟨-, hpack, -⟩ := pack_fewest 18 [[("id", .ofNat 1)], [("id", .ofNat 2)]]
  obtain ⟨parts, htexts, -, -, -, hfewest⟩ := hpack _ htwo
  have hlength : 2 = parts.length := by simpa using congrArg List.length htexts
  exact hlength ▸ hfewest others hothers

end DocumentDb.Shard
