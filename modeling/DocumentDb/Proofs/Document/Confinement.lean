import DocumentDb.Proofs.Document.Embedding
import DocumentDb.Proofs.Document.StoredForm

/-!
# Building writes within bounds

A document that building lets wait is a new one or one whose id the input names. So all that waits
is within given bounds if these have the ids of the objects that the input mentions and, where an
object without an id stands for a document, the new ids of its collection.

One kind of object may name an id beyond the bounds: one that is *in sync* with the store, so that
it changes nothing of the document that is stored. It is taken as it is, whatever it contains.
-/

namespace DocumentDb

/-! ### Bounds -/

theorem DocId.toValue_injective {a b : DocId} (h : a.toValue = b.toValue) : a = b := by
  have hsame := DocId.identical_toValue a b
  rw [← h, DocId.identical_toValue] at hsame
  simpa using hsame.symm

/-- A document is stored that an object names and does not change. -/
def MemoryStore.InSync (store : MemoryStore) (collection : String) (object : Object) : Prop :=
  ∃ id stored, Object.value? object idKey = some id.toValue ∧
    findDocument (store.documents collection) id = some stored ∧
    Build.changesNothing object stored = true

theorem MemoryStore.InSync.found {store : MemoryStore} {collection : String} {object : Object}
    {id : DocId} (h : store.InSync collection object)
    (hid : Object.value? object idKey = some id.toValue) :
    ∃ stored, findDocument (store.documents collection) id = some stored ∧
      Build.changesNothing object stored = true := by
  obtain ⟨own, stored, hown, hfound, hsame⟩ := h
  rw [hid] at hown
  obtain rfl : id = own := DocId.toValue_injective (Option.some.inj hown)
  exact ⟨stored, hfound, hsame⟩

/-- An id that is new to a store: it is not in use, and a number is above the counter. -/
def MemoryStore.Fresh (store : MemoryStore) (collection : String) (id : DocId) : Prop :=
  ¬ store.Has collection id ∧ ∀ n, id = .number n → store.count collection < n

/-- An object that has no id. -/
def Object.Nameless (object : Object) : Prop :=
  Object.value? object idKey = none ∨ Object.value? object idKey = some .null

theorem Object.Nameless.not_named {object : Object} (h : object.Nameless) (id : DocId) :
    Object.value? object idKey ≠ some id.toValue := by
  rcases h with h | h <;> rw [h] <;> cases id <;> simp [DocId.toValue, Value.ofNat]

/-- **Bounds of what an operation writes.** -/
structure Bounds where
  /-- The documents that it may write. -/
  named : String → DocId → Prop
  /-- The collections that it may add new documents to. -/
  created : String → Prop

namespace Bounds

/-- A document within the bounds. -/
def Allows (bounds : Bounds) (store : MemoryStore) (collection : String) (id : DocId) : Prop :=
  bounds.named collection id ∨ (bounds.created collection ∧ store.Fresh collection id)

/-- An object that names a document which may not be written. -/
def Spares (bounds : Bounds) (collection : String) (object : Object) : Prop :=
  ∃ id, Object.value? object idKey = some id.toValue ∧ ¬ bounds.named collection id

/-- **An object that may be embedded within bounds**: it names a document that may be written, or it
is in sync; if it names none, its collection may get new documents. -/
structure Tolerates (bounds : Bounds) (store : MemoryStore) (collection : String)
    (object : Object) : Prop where
  named : ∀ id, Object.value? object idKey = some id.toValue →
    bounds.named collection id ∨ store.InSync collection object
  nameless : object.Nameless → bounds.created collection

theorem not_spares {bounds : Bounds} {collection : String} {object : Object} {id : DocId}
    (hid : Object.value? object idKey = some id.toValue) (hnamed : bounds.named collection id) :
    ¬ bounds.Spares collection object := by
  rintro ⟨other, hother, hspared⟩
  rw [hid] at hother
  exact hspared (DocId.toValue_injective (Option.some.inj hother) ▸ hnamed)

end Bounds

/-- **Work within bounds**: its spaces follow the store, and what waits is within them. -/
structure Work.Confined (ground : Ground) (bounds : Bounds) (work : Work) : Prop where
  follows : work.Follows ground.context.registry ground.store
  waiting : ∀ write ∈ work.pending, ∃ id, write.document.id? = some id ∧
    bounds.Allows ground.store write.collection id

namespace Build

/-! ### Steps within bounds -/

section Steps
variable {ground : Ground} {bounds : Bounds} {α β : Type} {collection : String}

/-- **A step stays within bounds**, and its value is as `done` says. -/
def Confines (ground : Ground) (bounds : Bounds) (step : Build α)
    (done : α → Prop) : Prop :=
  ∀ work : Work, work.Confined ground bounds → Ensures (step ground.context) work
    (fun a after => after.Confined ground bounds ∧ done a)
    (fun _ after => after.Confined ground bounds)

theorem Confines.bind {first : Build α} {next : α → Build β} {middle : α → Prop}
    {done : β → Prop} (hfirst : Confines ground bounds first middle)
    (hnext : ∀ a, middle a → Confines ground bounds (next a) done) :
    Confines ground bounds (first >>= next) done := fun work hwork =>
  Ensures.bind (hfirst work hwork) fun a after h => hnext a h.2 after h.1

theorem Confines.mono {step : Build α} {done done' : α → Prop}
    (h : Confines ground bounds step done) (hdone : ∀ a, done a → done' a) :
    Confines ground bounds step done' := fun work hwork =>
  (h work hwork).mono (fun a _ h => ⟨h.1, hdone a h.2⟩) fun _ _ h => h

theorem confines_lift {result : Except Error α} :
    Confines ground bounds (lift result) fun a => result = .ok a := fun _ hwork =>
  ensures_lift ground.context (fun _ ha => ⟨hwork, ha⟩) fun _ _ => hwork

theorem confines_pure {a : α} {done : α → Prop} (h : done a) :
    Confines ground bounds (pure a) done := fun _ hwork => ⟨hwork, h⟩

theorem read_confines : Confines ground bounds (read : Build Context)
    fun context => context = ground.context := fun _ hwork => ⟨hwork, rfl⟩

theorem get_confines : Confines ground bounds (get : Build Work) fun _ => True :=
  fun _ hwork => ⟨hwork, trivial⟩

theorem draw_confines (drawn : Nat) :
    Confines ground bounds (modify fun work => { work with drawn } : Build Unit) fun _ => True :=
  fun _ hwork => ⟨⟨⟨hwork.follows.once, hwork.follows.each⟩, hwork.waiting⟩, trivial⟩

theorem tree_confines : Confines ground bounds (tree collection)
    fun tree => ground.context.registry.tree? collection = some tree := by
  refine read_confines.bind fun context hcontext => ?_
  exact hcontext ▸ confines_lift.mono fun _ => Registry.tree_ok_iff.mp

/-- Setting a space that follows the store. -/
theorem put_confines {space : IdSpace}
    (hspace : space.Follows ground.context.registry ground.store) :
    Confines ground bounds (modify (·.put space) : Build Unit) fun _ => True := fun _ hwork =>
  ⟨⟨hwork.follows.put hspace, hwork.waiting⟩, trivial⟩

/-- Letting a document wait that is within the bounds. -/
theorem push_confines {document : Document} {id : DocId} (hid : document.id? = some id)
    (hallowed : bounds.Allows ground.store collection id) :
    Confines ground bounds (push collection document) fun _ => True := by
  intro work hwork
  refine ⟨⟨⟨hwork.follows.once, hwork.follows.each⟩, fun write hin => ?_⟩, trivial⟩
  rcases List.mem_append.mp hin with hin | hin
  · exact hwork.waiting write hin
  · rw [List.mem_singleton.mp hin]
    exact ⟨id, hid, hallowed⟩

variable (hground : ground.Sound)
include hground

/-- A space that is looked at follows the store. -/
theorem space_confines : Confines ground bounds (space collection) fun space =>
    space.collection = collection ∧ space.Follows ground.context.registry ground.store := by
  intro work hwork
  refine ensures_bind.mpr (ensures_get.mpr ?_)
  cases hspace : work.space? collection with
  | some space =>
    obtain ⟨hin, hcollection⟩ := Work.space?_some hspace
    exact ⟨hwork, hcollection, hwork.follows.each space hin⟩
  | none =>
    refine ensures_bind.mpr ((tree_confines work hwork).mono ?_ fun _ _ h => h)
    rintro tree after ⟨hafter, htree⟩
    refine ensures_bind.mpr (ensures_lift ground.context (fun state hstate => ?_) fun _ _ => hafter)
    rw [hground.state] at hstate
    obtain ⟨hcollection, hfollows, _⟩ := IdSpace.follows_ofState hground htree hstate
    exact ⟨⟨hafter.follows.put hfollows, hafter.waiting⟩, hcollection, hfollows⟩

/-- The id of a new document: one that the store does not have, or the one that the input names. -/
structure Numbering (ground : Ground) (collection : String) (input : Object) (id : DocId) :
    Prop where
  admits : ∃ tree, ground.context.registry.tree? collection = some tree ∧ tree.id.Admits id
  given : (input.Nameless ∧ ground.store.Fresh collection id) ∨
    Object.value? input idKey = some id.toValue

theorem generateId_confines {input : Object} (hinput : input.Nameless) :
    Confines ground bounds (generateId collection) (Numbering ground collection input) := by
  refine (space_confines hground).bind ?_
  rintro space ⟨rfl, hspace⟩
  obtain ⟨tree, htree, hrule⟩ := hspace.rule
  have hproper : space.rule.Proper := hrule ▸ (hground.registry.tree? htree).id
  refine read_confines.bind ?_
  rintro _ rfl
  refine get_confines.bind fun found _ => ?_
  refine (draw_confines _).bind fun _ _ => confines_lift.bind fun taken htaken => ?_
  obtain ⟨id, after⟩ := taken
  obtain ⟨htakes, hnext⟩ := IdSpace.generate_ok hground.source hproper htaken
  refine (put_confines (hspace.takes htakes)).bind fun _ _ => confines_pure ?_
  refine ⟨⟨tree, htree, hrule ▸ htakes.admits⟩, Or.inl ⟨hinput, ?_, fun n hn => ?_⟩⟩
  · exact fun hhas => htakes.unused (hspace.stored id hhas)
  · rw [hnext n hn]
    exact Nat.lt_succ_of_le hspace.ahead

theorem claimId_confines {input : Object} {field : String} {value : Value}
    (hinput : Object.value? input idKey = some value) :
    Confines ground bounds (claimId collection field value)
      (Numbering ground collection input) := by
  refine (space_confines hground).bind ?_
  rintro space ⟨rfl, hspace⟩
  obtain ⟨tree, htree, hrule⟩ := hspace.rule
  refine confines_lift.bind fun taken htaken => ?_
  obtain ⟨id, after⟩ := taken
  obtain ⟨hvalue, htakes⟩ := IdSpace.claim_ok htaken
  refine (put_confines (hspace.takes htakes)).bind fun _ _ => confines_pure ?_
  exact ⟨⟨tree, htree, hrule ▸ htakes.admits⟩, Or.inr (hvalue ▸ hinput)⟩

theorem newId_confines {path : String} {input : Object} :
    Confines ground bounds (newId path collection input)
      (Numbering ground collection input) := by
  unfold newId
  split
  · next hnone => exact generateId_confines hground (Or.inl hnone)
  · next hnull => exact generateId_confines hground (Or.inr hnull)
  · next value _ hvalue => exact claimId_confines hground hvalue

/-- The latest version of a document; beyond the bounds it is the stored one. -/
theorem lookup_confines {id : DocId} : Confines ground bounds (lookup collection id)
    fun document => document.id? = some id ∧ (¬ bounds.Allows ground.store collection id →
      findDocument (ground.store.documents collection) id = some document) := by
  intro work hwork
  refine ensures_bind.mpr (ensures_get.mpr ?_)
  cases hpending : work.pendingDocument? collection id with
  | some document =>
    unfold Work.pendingDocument? at hpending
    obtain ⟨write, hfound, rfl⟩ := Option.map_eq_some_iff.mp hpending
    have hmeans := List.find?_some hfound
    simp only [Bool.and_eq_true, beq_iff_eq] at hmeans
    obtain ⟨own, hown, hallowed⟩ :=
      hwork.waiting write (List.mem_reverse.mp (List.mem_of_find?_eq_some hfound))
    rw [hmeans.2] at hown
    cases hown
    exact ⟨hwork, hmeans.2, fun hbeyond => absurd (hmeans.1 ▸ hallowed) hbeyond⟩
  | none =>
    refine ensures_bind.mpr (ensures_lift ground.context (fun found hfound => ?_) fun _ _ => hwork)
    rw [hground.fetch collection id] at hfound
    cases hdocument : findDocument (ground.store.documents collection) id with
    | none =>
      rw [hdocument] at hfound
      cases hfound
      exact hwork
    | some document =>
      rw [hdocument] at hfound
      cases hfound
      exact ⟨hwork, (findDocument_eq_some hdocument).2, fun _ => rfl⟩

theorem checkSize_confines {document : Document} :
    Confines ground bounds (checkSize collection document) fun _ => True := by
  refine (space_confines hground).bind fun space _ => ?_
  dsimp only
  split_ifs
  · exact confines_lift.mono fun _ _ => trivial
  · exact confines_pure trivial

end Steps

/-! ### The builder -/

/-- Applying a patch leaves reserved keys alone. -/
theorem mergeFields_reserved {context : Context} {work : Work} (path : String) (fields : Fields)
    (target patch : Object) (scope : Scope) (reserved : List String) :
    Ensures (mergeFields path fields target patch scope reserved context) work
      (fun merged _ => ∀ key ∈ reserved, Object.value? merged key = Object.value? target key)
      (fun _ _ => True) := by
  induction patch generalizing target work with
  | nil =>
    rw [mergeFields]
    exact fun _ _ => rfl
  | cons entry rest ih =>
    obtain ⟨key, value⟩ := entry
    by_cases hreserved : reserved.contains key = true
    · rw [mergeFields, if_pos hreserved]
      exact ih target
    have hset : ∀ {middle : Work} {changed : Object},
        (∀ other ≠ key, Object.value? changed other = Object.value? target other) →
        Ensures (mergeFields path fields changed rest scope reserved context) middle
          (fun merged _ => ∀ key ∈ reserved, Object.value? merged key = Object.value? target key)
          (fun _ _ => True) := by
      intro middle changed hsame
      refine (ih changed).mono (fun merged _ hmerged other hother => ?_) fun _ _ h => h
      rw [hmerged other hother]
      exact hsame other fun heq => hreserved (heq ▸ List.contains_iff_mem.mpr hother)
    have hput : ∀ built other, other ≠ key →
        Object.value? (target.put key built) other = Object.value? target other := by
      intro built other hne
      rw [Object.value?_put, if_neg (Ne.symm hne)]
    cases hnode : fields.node? key with
    | none =>
      rw [mergeFields, if_neg hreserved, hnode]
      dsimp only
      split_ifs
      · exact trivial
      · exact hset (hput _)
    | some node =>
      by_cases hnested : ∃ inner, node = .nested inner
      · obtain ⟨inner, rfl⟩ := hnested
        rw [mergeFields, if_neg hreserved, hnode]
        cases value with
        | object nested => exact ensures_then ensures_any fun _ _ _ => hset (hput _)
        | _ => exact trivial
      · rw [mergeFields_value (Bool.eq_false_iff.mpr hreserved) hnode fun inner h =>
          hnested ⟨inner, h⟩]
        refine ensures_then ensures_any fun built _ _ => ?_
        cases built with
        | some built => exact hset (hput built)
        | none =>
          refine hset fun other hne => ?_
          show Object.value? (target.without key) other = _
          rw [Object.value?_without, if_neg hne]

section Builder
variable {ground : Ground} {bounds : Bounds} {α : Type} {path collection : String}
  {input : Object} (hground : ground.Sound)
include hground

/-- Building a new document stays within bounds if building its fields does. -/
theorem insertDocument_confines {inject : Option Owner}
    (hfields : ∀ tree, ground.context.registry.tree? collection = some tree →
      ∀ path scope reserved, Confines ground bounds
        (buildFields path tree.fields input scope reserved) fun _ => True) :
    Confines ground bounds (insertDocument path collection input inject) fun document =>
      ∃ id, document.id? = some id ∧ Numbering ground collection input id := by
  rw [insertDocument]
  refine tree_confines.bind fun tree htree => (newId_confines hground).bind fun id hid => ?_
  refine (hfields tree htree _ _ _).bind fun fields _ => read_confines.bind fun context _ => ?_
  refine (checkSize_confines hground).bind fun _ _ => confines_pure ⟨id, ?_, hid⟩
  obtain ⟨own, hown, hadmits⟩ := hid.admits
  rw [htree] at hown
  cases hown
  exact id?_new context.now hadmits (hground.registry.tree? htree).id

/-- Changing a document stays within bounds if applying the patch does; the id stays. -/
theorem updateDocument_confines {existing : Document} {id : DocId} (hid : existing.id? = some id)
    (hfields : ∀ tree, ground.context.registry.tree? collection = some tree →
      ∀ path target scope reserved, Confines ground bounds
        (mergeFields path tree.fields target input scope reserved) fun _ => True) :
    Confines ground bounds (updateDocument path collection existing input) fun document =>
      document.id? = some id := by
  rw [updateDocument]
  refine tree_confines.bind fun tree htree => ?_
  rw [hid]
  refine confines_lift.bind fun _ _ => ?_
  have hmerged : Confines ground bounds (mergeFields path tree.fields existing input
      { strict := tree.settings.strict, owner := { collection, id }, inject := none, top := true }
      tree.managedKeys)
      fun merged => Object.value? merged idKey = Object.value? existing idKey := by
    intro work hwork
    refine ((hfields tree htree _ _ _ _ work hwork).and (mergeFields_reserved _ _ _ _ _ _)).mono
      (fun merged after h => ⟨h.1.1, h.2 _ List.mem_cons_self⟩) fun _ _ h => h.1
  refine hmerged.bind fun merged hkept => read_confines.bind fun context _ => ?_
  refine (checkSize_confines hground).bind fun _ _ => confines_pure ?_
  rw [id?_order]
  exact id?_changed context.now hid hkept

/-- Adding an embedded document stays within bounds if its new id is within them. -/
theorem createEmbedded_confines {inject : Option Owner}
    (hallowed : ∀ id, Numbering ground collection input id →
      bounds.Allows ground.store collection id)
    (hfields : ∀ tree, ground.context.registry.tree? collection = some tree →
      ∀ path scope reserved, Confines ground bounds
        (buildFields path tree.fields input scope reserved) fun _ => True) :
    Confines ground bounds (createEmbedded path collection input inject) fun _ => True := by
  rw [createEmbedded]
  refine (insertDocument_confines hground hfields).bind ?_
  rintro document ⟨id, hid, hnumbering⟩
  exact (push_confines hid (hallowed id hnumbering)).bind fun _ _ => confines_pure trivial

/-- Embedding an object whose id is in use stays within bounds if they name the id, or if the object
changes nothing of the stored document. -/
theorem embedStored_confines {id : DocId}
    (hwithin : bounds.named collection id ∨
      ∃ stored, findDocument (ground.store.documents collection) id = some stored ∧
        changesNothing input stored = true)
    (hfields : bounds.named collection id →
      ∀ tree, ground.context.registry.tree? collection = some tree →
        ∀ path target scope reserved, Confines ground bounds
          (mergeFields path tree.fields target input scope reserved) fun _ => True) :
    Confines ground bounds (do
      let stored ← lookup collection id
      if changesNothing input stored then pure stored
      else
        let document ← updateDocument path collection stored input
        push collection document
        pure document) fun _ => True := by
  refine (lookup_confines hground).bind fun latest hlatest => ?_
  split_ifs with hsame
  · exact confines_pure trivial
  have hnamed : bounds.named collection id := by
    by_contra hnamed
    obtain ⟨stored, hfound, hkeeps⟩ := hwithin.resolve_left hnamed
    have hbeyond : ¬ bounds.Allows ground.store collection id := by
      rintro (hallowed | ⟨_, hfresh⟩)
      · exact hnamed hallowed
      · exact hfresh.1 (MemoryStore.has_iff_find.mpr ⟨stored, hfound⟩)
    -- Beyond the bounds the latest version is the stored one, which stays as it is.
    rw [hlatest.2 hbeyond] at hfound
    cases hfound
    exact hsame hkeeps
  refine (updateDocument_confines hground hlatest.1 (hfields hnamed)).bind
    fun document hdocument => ?_
  exact (push_confines hdocument (Or.inl hnamed)).bind fun _ _ => confines_pure trivial

/-- **Embedding stays within bounds** if the object may be embedded within them and building its
fields stays within them. -/
theorem embedDocument_confines {inject : Option Owner}
    (hasked : bounds.Tolerates ground.store collection input)
    (hnew : ¬ bounds.Spares collection input →
      ∀ tree, ground.context.registry.tree? collection = some tree →
        ∀ path scope reserved, Confines ground bounds
          (buildFields path tree.fields input scope reserved) fun _ => True)
    (hchanged : ¬ bounds.Spares collection input →
      ∀ tree, ground.context.registry.tree? collection = some tree →
        ∀ path target scope reserved, Confines ground bounds
          (mergeFields path tree.fields target input scope reserved) fun _ => True) :
    Confines ground bounds (embedDocument path collection input inject) fun _ => True := by
  have hnameless : input.Nameless →
      Confines ground bounds (createEmbedded path collection input inject) fun _ => True := by
    intro hinput
    refine createEmbedded_confines hground (fun id hnumbering => ?_) (hnew ?_)
    · rcases hnumbering.given with ⟨_, hfresh⟩ | hnamed
      · exact Or.inr ⟨hasked.nameless hinput, hfresh⟩
      · exact absurd hnamed (hinput.not_named id)
    · rintro ⟨id, hnamed, _⟩
      exact hinput.not_named id hnamed
  rw [embedDocument]
  split
  · next hnone => exact hnameless (Or.inl hnone)
  · next hnull => exact hnameless (Or.inr hnull)
  · next value hnull hvalue =>
    refine (space_confines hground).bind ?_
    rintro space ⟨rfl, hspace⟩
    refine confines_lift.bind fun id hcast => ?_
    have hid : Object.value? input idKey = some id.toValue := by
      rw [hvalue, (IdSpace.cast_ok hcast).1]
    have hwithin := (hasked.named id hid).imp_right fun hsync => hsync.found hid
    split_ifs with hused
    · exact embedStored_confines hground hwithin fun hnamed =>
        hchanged (Bounds.not_spares hid hnamed)
    · -- What is in sync is stored, so an id that is not in use is named.
      have hnamed : bounds.named space.collection id := hwithin.resolve_right fun hstored =>
        hused (IdSpace.contains_iff.mpr (hspace.stored id (MemoryStore.has_iff_find.mpr
          (hstored.imp fun _ h => h.1))))
      refine createEmbedded_confines hground (fun other hnumbering => ?_)
        (hnew (Bounds.not_spares hid hnamed))
      rcases hnumbering.given with ⟨hinput, _⟩ | hother
      · exact absurd hid (hinput.not_named id)
      · rw [hid] at hother
        exact Or.inl (DocId.toValue_injective (Option.some.inj hother) ▸ hnamed)

/-- **Building stays within bounds** if all that the input mentions may be embedded within them. -/
theorem Composed.confines {step : Build α} (h : Composed ground.context.registry bounds.Spares
      (bounds.Tolerates ground.store) step) :
    Confines ground bounds step fun _ => True := by
  induction h with
  | lift => exact confines_lift.mono fun _ _ => trivial
  | bind _ _ hfirst hnext => exact hfirst.bind fun a _ => hnext a
  | checkReference =>
    exact (space_confines hground).bind fun _ _ => confines_lift.mono fun _ _ => trivial
  | embed hasked _ _ hnew hchanged => exact embedDocument_confines hground hasked hnew hchanged

/-- **Changing a document** lets only documents within bounds wait, and keeps the id. -/
theorem change_confines {existing : Document} {id : DocId} {raw : Value}
    (hid : existing.id? = some id)
    (hraw : ∀ tree, ground.context.registry.tree? collection = some tree →
      Mentioned ground.context.registry bounds.Spares (bounds.Tolerates ground.store)
        (.nested tree.fields) raw) :
    Confines ground bounds (change collection existing raw) fun document =>
      document.id? = some id := by
  have hinput : Confines ground bounds (inputObject collection raw)
      fun patch => raw = .object patch := by
    unfold inputObject
    split
    · exact confines_pure rfl
    · exact confines_lift.mono fun _ _ => by contradiction
  refine hinput.bind fun patch hpatch => ?_
  subst hpatch
  exact updateDocument_confines hground hid fun tree htree path target scope reserved =>
    (mergeFields_composed path tree.fields target patch scope reserved (hraw tree htree)).confines
      hground

end Builder

end Build

end DocumentDb
