import DocumentDb.Proofs.Document.StoredForm
import DocumentDb.Proofs.Store.Soundness

/-!
# Sound work on documents

Work on documents stands on a store that it reads. Its spaces *follow* the store: they contain all
stored ids, their numbers are at most their counters, and these are not behind the stored ones. It
is *sound* if, moreover,

* the documents that wait conform to their schemas and have ids that are taken,
* every id that is taken is stored, waits, or is *open*: its document is being built,
* every number that is taken was stored before, was named by the input, or is above the counter.

References name known documents: those with taken ids, which are stored when all is done.

`Keeps` is what every step of building ensures: that sound work stays sound and takes no id back,
whatever the step does, and that a step that fails leaves spaces that follow the store.
-/

namespace DocumentDb

/-- What work on documents stands on. -/
structure Ground where
  context : Context
  /-- The store that the work reads. -/
  store : MemoryStore
  /-- References may name documents that are not stored. -/
  loose : Prop
  /-- The ids that the input names. -/
  named : String → DocId → Prop

/-- Documents that may be referred to while a store does not change. -/
def MemoryStore.Knows (store : MemoryStore) (loose : Prop) (collection : String) (id : DocId) :
    Prop :=
  loose ∨ store.Has collection id

/-- What is taken for granted of the ground of work. -/
structure Ground.Sound (ground : Ground) : Prop where
  registry : ground.context.registry.Proper
  source : ground.context.source.Exact
  state : ∀ collection, ground.context.state collection = ground.store.state collection
  fetch : ∀ collection id, ground.context.fetch collection id =
    .ok (findDocument (ground.store.documents collection) id)
  stored : ground.store.Sound ground.context.registry (ground.store.Knows ground.loose)

/-- **A space follows a store.** -/
structure IdSpace.Follows (registry : Registry) (store : MemoryStore) (space : IdSpace) :
    Prop where
  rule : ∃ tree, registry.tree? space.collection = some tree ∧ space.rule = tree.id
  recorded : space.recorded = store.count space.collection
  ahead : store.count space.collection ≤ space.count
  stored : ∀ id, store.Has space.collection id → id ∈ space.ids
  admits : ∀ id ∈ space.ids, space.rule.Admits id
  numbered : space.Numbered

namespace Work

/-- An id that is in use for work. -/
def Taken (work : Work) (collection : String) (id : DocId) : Prop :=
  ∃ space ∈ work.spaces, space.collection = collection ∧ id ∈ space.ids

/-- No id is taken back. -/
def Grows (work after : Work) : Prop :=
  ∀ collection id, work.Taken collection id → after.Taken collection id

theorem Grows.refl (work : Work) : work.Grows work := fun _ _ h => h

theorem Grows.trans {work middle after : Work} (h : work.Grows middle) (h' : middle.Grows after) :
    work.Grows after := fun collection id htaken => h' collection id (h collection id htaken)

/-- A document waits to be stored. -/
def Waits (work : Work) (collection : String) (id : DocId) : Prop :=
  ∃ write ∈ work.pending, write.collection = collection ∧ write.document.id? = some id

/-- The spaces of work follow a store. -/
structure Follows (registry : Registry) (store : MemoryStore) (work : Work) : Prop where
  once : (work.spaces.map (·.collection)).Nodup
  each : ∀ space ∈ work.spaces, space.Follows registry store

end Work

/-- The documents that may be referred to at some moment of work. -/
def Ground.Knows (ground : Ground) (work : Work) (collection : String) (id : DocId) : Prop :=
  ground.loose ∨ ground.store.Has collection id ∨ work.Taken collection id

/-- A document that has an id and conforms to the schema of its collection. -/
structure Ground.Built (ground : Ground) (work : Work) (collection : String) (id : DocId)
    (document : Document) : Prop where
  id : document.id? = some id
  conform : ∃ tree, ground.context.registry.tree? collection = some tree ∧
    Conforms ground.context.registry (ground.Knows work) tree document

/-- **Work is sound** while some documents are being built. -/
structure Work.Sound (ground : Ground) (opened : List (String × DocId)) (work : Work) : Prop where
  follows : work.Follows ground.context.registry ground.store
  waiting : ∀ write ∈ work.pending, ∃ id, work.Taken write.collection id ∧
    ground.Built work write.collection id write.document
  covered : ∀ collection id, work.Taken collection id → ground.store.Has collection id ∨
    work.Waits collection id ∨ (collection, id) ∈ opened
  fresh : ∀ collection n, work.Taken collection (.number n) →
    ground.store.Has collection (.number n) ∨ ground.named collection (.number n) ∨
      ground.store.count collection < n

/-! ### More is known when more ids are taken -/

section Growth
variable {ground : Ground} {work after : Work}

theorem Ground.knows_mono (hgrows : work.Grows after) :
    ∀ collection id, ground.Knows work collection id → ground.Knows after collection id := by
  rintro collection id (h | h | h)
  · exact Or.inl h
  · exact Or.inr (Or.inl h)
  · exact Or.inr (Or.inr (hgrows _ _ h))

theorem Ground.Built.mono (hgrows : work.Grows after) {collection : String} {id : DocId}
    {document : Document} (h : ground.Built work collection id document) :
    ground.Built after collection id document where
  id := h.id
  conform := by
    obtain ⟨tree, htree, hconforms⟩ := h.conform
    exact ⟨tree, htree, hconforms.mono (ground.knows_mono hgrows)⟩

end Growth

/-! ### Setting a space -/

namespace Work

section Spaces
variable {work : Work} {new space : IdSpace} {spaces : List IdSpace} {collection : String}

theorem collections_putSpace :
    (putSpace new spaces).map (·.collection) =
      if new.collection ∈ spaces.map (·.collection) then spaces.map (·.collection)
      else spaces.map (·.collection) ++ [new.collection] := by
  induction spaces with
  | nil => simp [putSpace]
  | cons first rest ih =>
    by_cases heq : first.collection = new.collection
    · simp [putSpace, heq]
    · by_cases hin : new.collection ∈ rest.map (·.collection)
      · simp [putSpace, heq, ih, hin]
      · simp [putSpace, heq, ih, hin, Ne.symm heq]

theorem mem_putSpace (hnodup : (spaces.map (·.collection)).Nodup) :
    space ∈ putSpace new spaces ↔
      space = new ∨ (space ∈ spaces ∧ space.collection ≠ new.collection) := by
  induction spaces with
  | nil => simp [putSpace]
  | cons first rest ih =>
    simp only [List.map_cons, List.nodup_cons] at hnodup
    by_cases heq : first.collection = new.collection
    · have hrest : ∀ other ∈ rest, other.collection ≠ new.collection := by
        intro other hother hsame
        exact hnodup.1 (heq ▸ hsame ▸ List.mem_map_of_mem hother)
      simp only [putSpace, heq, beq_self_eq_true, if_true, List.mem_cons]
      constructor
      · rintro (rfl | hin)
        · exact Or.inl rfl
        · exact Or.inr ⟨Or.inr hin, hrest space hin⟩
      · rintro (rfl | ⟨rfl | hin, hne⟩)
        · exact Or.inl rfl
        · exact absurd heq hne
        · exact Or.inr hin
    · simp only [putSpace, beq_eq_false_iff_ne.mpr heq, Bool.false_eq_true, if_false,
        List.mem_cons, ih hnodup.2]
      constructor
      · rintro (rfl | rfl | ⟨hin, hne⟩)
        · exact Or.inr ⟨Or.inl rfl, heq⟩
        · exact Or.inl rfl
        · exact Or.inr ⟨Or.inr hin, hne⟩
      · rintro (rfl | ⟨rfl | hin, hne⟩)
        · exact Or.inr (Or.inl rfl)
        · exact Or.inl rfl
        · exact Or.inr (Or.inr ⟨hin, hne⟩)

theorem nodup_put (hnodup : (work.spaces.map (·.collection)).Nodup) :
    ((work.put new).spaces.map (·.collection)).Nodup := by
  unfold put
  simp only [collections_putSpace]
  split_ifs with hin
  · exact hnodup
  · rw [← List.concat_eq_append]
    exact hnodup.concat hin

theorem taken_put (hnodup : (work.spaces.map (·.collection)).Nodup) {id : DocId} :
    (work.put new).Taken collection id ↔
      (new.collection = collection ∧ id ∈ new.ids) ∨
        (new.collection ≠ collection ∧ work.Taken collection id) := by
  unfold Taken put
  simp only [mem_putSpace hnodup]
  constructor
  · rintro ⟨space, rfl | ⟨hin, hne⟩, rfl, hid⟩
    · exact Or.inl ⟨rfl, hid⟩
    · exact Or.inr ⟨fun h => hne h.symm, space, hin, rfl, hid⟩
  · rintro (⟨rfl, hid⟩ | ⟨hne, space, hin, rfl, hid⟩)
    · exact ⟨new, Or.inl rfl, rfl, hid⟩
    · exact ⟨space, Or.inr ⟨hin, fun h => hne h.symm⟩, rfl, hid⟩

theorem space?_some (h : work.space? collection = some space) :
    space ∈ work.spaces ∧ space.collection = collection :=
  ⟨List.mem_of_find?_eq_some h, by simpa using List.find?_some h⟩

theorem space?_none (h : work.space? collection = none) :
    ∀ space ∈ work.spaces, space.collection ≠ collection := by
  intro space hin
  have := List.find?_eq_none.mp h space hin
  simpa using this

theorem space?_put :
    (work.put new).space? collection =
      if new.collection = collection then some new else work.space? collection := by
  have hfind : ∀ spaces : List IdSpace, (putSpace new spaces).find? (·.collection == collection) =
      if new.collection = collection then some new
      else spaces.find? (·.collection == collection) := by
    intro spaces
    induction spaces with
    | nil => by_cases heq : new.collection = collection <;> simp [putSpace, heq]
    | cons first rest ih =>
      by_cases hfirst : first.collection = new.collection
      · by_cases heq : new.collection = collection
        · simp [putSpace, hfirst, heq]
        · simp [putSpace, hfirst, heq]
      · by_cases heq : new.collection = collection
        · have hne : first.collection ≠ collection := heq ▸ hfirst
          simp [putSpace, ih, heq, hne]
        · simp [putSpace, hfirst, List.find?_cons, ih, heq]
  exact hfind work.spaces

/-- The ids that are taken in a collection are those of its space. -/
theorem taken_iff (hnodup : (work.spaces.map (·.collection)).Nodup) (hin : space ∈ work.spaces)
    {id : DocId} : work.Taken space.collection id ↔ id ∈ space.ids := by
  constructor
  · rintro ⟨other, hother, heq, hid⟩
    have := List.inj_on_of_nodup_map hnodup hother hin heq
    rw [← this]
    exact hid
  · intro hid
    exact ⟨space, hin, rfl, hid⟩

/-- Setting a space that took an id: it is taken besides those that were taken before. -/
theorem taken_put_takes (hnodup : (work.spaces.map (·.collection)).Nodup)
    (hin : space ∈ work.spaces) {id other : DocId} (htakes : space.Takes id new) :
    (work.put new).Taken collection other ↔
      (collection = space.collection ∧ other = id) ∨ work.Taken collection other := by
  rw [taken_put hnodup, htakes.after_eq, IdSpace.claimed_collection, IdSpace.claimed_ids,
    List.mem_cons]
  constructor
  · rintro (⟨rfl, rfl | hother⟩ | ⟨_, htaken⟩)
    · exact Or.inl ⟨rfl, rfl⟩
    · exact Or.inr ((taken_iff hnodup hin).mpr hother)
    · exact Or.inr htaken
  · rintro (⟨rfl, rfl⟩ | htaken)
    · exact Or.inl ⟨rfl, Or.inl rfl⟩
    · by_cases heq : space.collection = collection
      · subst heq
        exact Or.inl ⟨rfl, Or.inr ((taken_iff hnodup hin).mp htaken)⟩
      · exact Or.inr ⟨heq, htaken⟩

theorem Follows.put {registry : Registry} {store : MemoryStore} (h : work.Follows registry store)
    (hnew : new.Follows registry store) : (work.put new).Follows registry store where
  once := nodup_put h.once
  each other hother := by
    rcases (mem_putSpace h.once).mp hother with rfl | ⟨hother, _⟩
    · exact hnew
    · exact h.each other hother

end Spaces

end Work

/-- A space that takes an id keeps following the store. -/
theorem IdSpace.Follows.takes {registry : Registry} {store : MemoryStore} {space after : IdSpace}
    {id : DocId} (h : space.Follows registry store) (htakes : space.Takes id after) :
    after.Follows registry store := by
  have hadmits := htakes.admits
  obtain rfl := htakes.after_eq
  refine ⟨?_, ?_, ?_, ?_, ?_, h.numbered.claimed⟩
  · rw [claimed_collection, claimed_rule]
    exact h.rule
  · rw [claimed_collection, claimed_recorded]
    exact h.recorded
  · rw [claimed_collection]
    exact Nat.le_trans h.ahead count_le_claimed
  · rw [claimed_collection, claimed_ids]
    exact fun other hother => List.mem_cons_of_mem _ (h.stored other hother)
  · rw [claimed_ids, claimed_rule]
    exact List.forall_mem_cons.mpr ⟨hadmits, h.admits⟩

/-! ### Reading and taking -/

section Steps
variable {ground : Ground} {opened : List (String × DocId)} {work : Work}

/-- A space read from the store follows it. -/
theorem IdSpace.follows_ofState (hground : ground.Sound) {collection : String} {tree : Tree}
    (htree : ground.context.registry.tree? collection = some tree) {state : StoreState}
    (hstate : ground.store.state collection = .ok state) :
    (IdSpace.ofState tree state).collection = collection ∧
      (IdSpace.ofState tree state).Follows ground.context.registry ground.store ∧
      ∀ id, id ∈ (IdSpace.ofState tree state).ids ↔ ground.store.Has collection id := by
  have hcollection := Registry.tree?_collection htree
  obtain ⟨ids, hids, hmem⟩ := MemoryStore.state_identified (hground.stored.identified collection)
  rw [hstate] at hids
  cases hids
  refine ⟨hcollection, ⟨⟨tree, ?_, rfl⟩, ?_, ?_, ?_, ?_, ?_⟩, hmem⟩
  · exact hcollection.symm ▸ htree
  · simp only [IdSpace.ofState, hcollection]
  · simp only [IdSpace.ofState, hcollection]; exact Nat.le_refl _
  · intro id hid
    simp only [IdSpace.ofState, hcollection] at hid
    exact (hmem id).mpr hid
  · intro id hid
    obtain ⟨own, hown, hadmits⟩ := hground.stored.admits ((hmem id).mp hid)
    rw [htree] at hown
    cases hown
    exact hadmits
  · intro n hn
    exact hground.stored.counted collection n ((hmem _).mp hn)

/-- Reading a space for the first time takes no id. -/
theorem Work.Sound.read (h : work.Sound ground opened) {new : IdSpace}
    (hnone : work.space? new.collection = none)
    (hfollows : new.Follows ground.context.registry ground.store)
    (hids : ∀ id, id ∈ new.ids ↔ ground.store.Has new.collection id) :
    (work.put new).Sound ground opened ∧ work.Grows (work.put new) := by
  have hnodup := h.follows.once
  have hunread : ∀ id, ¬ work.Taken new.collection id := by
    rintro id ⟨space, hin, heq, _⟩
    exact Work.space?_none hnone space hin heq
  have hgrows : work.Grows (work.put new) := by
    intro collection id htaken
    refine (Work.taken_put hnodup).mpr (Or.inr ⟨?_, htaken⟩)
    rintro rfl
    exact hunread id htaken
  refine ⟨⟨h.follows.put hfollows, ?_, ?_, ?_⟩, hgrows⟩
  · intro write hin
    obtain ⟨id, htaken, hbuilt⟩ := h.waiting write hin
    exact ⟨id, hgrows _ _ htaken, hbuilt.mono hgrows⟩
  · intro collection id htaken
    rcases (Work.taken_put hnodup).mp htaken with ⟨rfl, hid⟩ | ⟨_, htaken⟩
    · exact Or.inl ((hids id).mp hid)
    · exact h.covered collection id htaken
  · intro collection n htaken
    rcases (Work.taken_put hnodup).mp htaken with ⟨rfl, hid⟩ | ⟨_, htaken⟩
    · exact Or.inl ((hids _).mp hid)
    · exact h.fresh collection n htaken

/-- Taking an id opens its document. -/
theorem Work.Sound.take (h : work.Sound ground opened) {space after : IdSpace} {id : DocId}
    (hin : space ∈ work.spaces) (htakes : space.Takes id after)
    (hfresh : ∀ n, id = .number n → ground.named space.collection id ∨
      ground.store.count space.collection < n) :
    (work.put after).Sound ground ((space.collection, id) :: opened) ∧
      work.Grows (work.put after) ∧ (work.put after).Taken space.collection id := by
  have htaken_iff : ∀ collection other, (work.put after).Taken collection other ↔
      (collection = space.collection ∧ other = id) ∨ work.Taken collection other :=
    fun _ _ => Work.taken_put_takes h.follows.once hin htakes
  have hgrows : work.Grows (work.put after) := fun collection other htaken =>
    (htaken_iff collection other).mpr (Or.inr htaken)
  have hfollows := (h.follows.each space hin).takes htakes
  refine ⟨⟨h.follows.put hfollows, ?_, ?_, ?_⟩, hgrows, (htaken_iff _ _).mpr (Or.inl ⟨rfl, rfl⟩)⟩
  · intro write hwrite
    obtain ⟨other, htaken, hbuilt⟩ := h.waiting write hwrite
    exact ⟨other, hgrows _ _ htaken, hbuilt.mono hgrows⟩
  · intro collection other htaken
    rcases (htaken_iff collection other).mp htaken with ⟨rfl, rfl⟩ | htaken
    · exact Or.inr (Or.inr List.mem_cons_self)
    · rcases h.covered collection other htaken with hhas | hwaits | hopen
      · exact Or.inl hhas
      · exact Or.inr (Or.inl hwaits)
      · exact Or.inr (Or.inr (List.mem_cons_of_mem _ hopen))
  · intro collection n htaken
    rcases (htaken_iff collection (.number n)).mp htaken with ⟨rfl, heq⟩ | htaken
    · rw [heq]
      exact Or.inr (hfresh n heq.symm)
    · exact h.fresh collection n htaken

/-- A document that was built may wait; then it is not open any more. -/
theorem Work.Sound.push (h : work.Sound ground opened) {opened' : List (String × DocId)}
    {collection : String} {id : DocId} {document : Document}
    (hopened : ∀ other ∈ opened, other = (collection, id) ∨ other ∈ opened')
    (htaken : work.Taken collection id) (hbuilt : ground.Built work collection id document) :
    (work.push collection document).Sound ground opened' where
  follows := ⟨h.follows.once, h.follows.each⟩
  waiting := by
    have hgrows : work.Grows (work.push collection document) := fun _ _ h => h
    intro write hin
    rcases List.mem_append.mp hin with hin | hin
    · obtain ⟨own, hown, hwrite⟩ := h.waiting write hin
      exact ⟨own, hown, hwrite.mono hgrows⟩
    · rw [List.mem_singleton.mp hin]
      exact ⟨id, htaken, hbuilt.mono hgrows⟩
  covered := by
    intro other otherId hother
    rcases h.covered other otherId hother with hhas | ⟨write, hin, hwrite⟩ | hopen
    · exact Or.inl hhas
    · exact Or.inr (Or.inl ⟨write, List.mem_append_left _ hin, hwrite⟩)
    · rcases hopened _ hopen with heq | hopen
      · cases heq
        exact Or.inr (Or.inl ⟨⟨collection, document⟩, by simp [Work.push], rfl, hbuilt.id⟩)
      · exact Or.inr (Or.inr hopen)
  fresh := h.fresh

/-- More documents may be open. -/
theorem Work.Sound.more_opened (h : work.Sound ground opened) {opened' : List (String × DocId)}
    (hopened : ∀ other ∈ opened, other ∈ opened') : work.Sound ground opened' where
  follows := h.follows
  waiting := h.waiting
  covered collection id htaken :=
    (h.covered collection id htaken).imp_right (Or.imp_right (hopened _))
  fresh := h.fresh

/-- Drawing random texts changes nothing that matters here. -/
theorem Work.Sound.draw (h : work.Sound ground opened) (drawn : Nat) :
    ({ work with drawn } : Work).Sound ground opened where
  follows := ⟨h.follows.once, h.follows.each⟩
  waiting := by
    have hgrows : work.Grows { work with drawn } := fun _ _ h => h
    intro write hin
    obtain ⟨own, hown, hwrite⟩ := h.waiting write hin
    exact ⟨own, hown, hwrite.mono hgrows⟩
  covered := h.covered
  fresh := h.fresh

end Steps

end DocumentDb
