import DocumentDb.Database.Operation
import DocumentDb.Proofs.Document.Building
import DocumentDb.Proofs.Store.Imitation

/-!
# Committing

A commit stores the counters that moved, the documents that wait and the document itself, in this
order. So at every moment of it the stored numbers are at most the stored counters, the spaces
follow the store, and what is stored was stored before or is taken (`Committing`): a commit that
fails leaves a store as sound as before. A commit that succeeds has stored everything that is taken,
and of each collection it has stored what waits, in its order, and the document last.
-/

namespace DocumentDb

/-! ### Groups -/

/-- The documents of a collection among groups. -/
def groupOf (collection : String) (groups : List (String × List Document)) : List Document :=
  (groups.filter (·.1 = collection)).flatMap (·.2)

/-- The documents of a collection among writes, in their order. -/
def writtenTo (collection : String) (writes : List PendingWrite) : List Document :=
  (writes.filter (·.collection = collection)).map (·.document)

/-- The last document that is written under an id. -/
def lastWritten (writes : List PendingWrite) (collection : String) (id : DocId) : Option Document :=
  findDocument (writtenTo collection writes).reverse id

section Groups
variable {collection : String} {write : PendingWrite} {groups : List (String × List Document)}

theorem names_putInGroup :
    (putInGroup write groups).map (·.1) =
      if write.collection ∈ groups.map (·.1) then groups.map (·.1)
      else groups.map (·.1) ++ [write.collection] := by
  induction groups with
  | nil => simp [putInGroup]
  | cons group rest ih =>
    by_cases heq : group.1 = write.collection
    · simp [putInGroup, heq]
    · by_cases hin : write.collection ∈ rest.map (·.1)
      · simp [putInGroup, heq, ih, hin]
      · simp [putInGroup, heq, ih, hin, Ne.symm heq]

theorem nodup_putInGroup (h : (groups.map (·.1)).Nodup) :
    ((putInGroup write groups).map (·.1)).Nodup := by
  rw [names_putInGroup]
  split_ifs with hin
  · exact h
  · rw [← List.concat_eq_append]
    exact h.concat hin

theorem groupOf_eq_nil (h : collection ∉ groups.map (·.1)) : groupOf collection groups = [] := by
  unfold groupOf
  have hnone : groups.filter (·.1 = collection) = [] := by
    rw [List.filter_eq_nil_iff]
    intro group hin heq
    exact h (of_decide_eq_true heq ▸ List.mem_map_of_mem hin)
  rw [hnone]
  rfl

theorem groupOf_putInGroup (h : (groups.map (·.1)).Nodup) :
    groupOf collection (putInGroup write groups) =
      groupOf collection groups ++
        if write.collection = collection then [write.document] else [] := by
  induction groups with
  | nil => by_cases heq : write.collection = collection <;> simp [putInGroup, groupOf, heq]
  | cons group rest ih =>
    simp only [List.map_cons, List.nodup_cons] at h
    have hrest := ih h.2
    unfold groupOf at hrest ⊢
    by_cases hgroup : group.1 = write.collection
    · by_cases heq : write.collection = collection
      · have hnil := groupOf_eq_nil (heq ▸ hgroup ▸ h.1)
        unfold groupOf at hnil
        simp [putInGroup, hgroup, heq, hnil]
      · simp [putInGroup, hgroup, heq]
    · rw [putInGroup, if_neg hgroup]
      by_cases heq : group.1 = collection
      · simp [heq, hrest]
      · simp [heq, hrest]

/-- **Grouping keeps the documents of a collection in their order.** -/
theorem groupOf_groups (writes : List PendingWrite) :
    groupOf collection (DocumentDb.groups writes) = writtenTo collection writes := by
  suffices h : ∀ (writes : List PendingWrite) (groups : List (String × List Document)),
      (groups.map (·.1)).Nodup →
      groupOf collection (writes.foldl (fun done write => putInGroup write done) groups) =
        groupOf collection groups ++ writtenTo collection writes by
    exact (h writes [] List.nodup_nil).trans (List.nil_append _)
  intro writes
  induction writes with
  | nil => intro groups _; simp [writtenTo]
  | cons write rest ih =>
    intro groups hnodup
    rw [List.foldl_cons, ih _ (nodup_putInGroup hnodup), groupOf_putInGroup hnodup]
    by_cases heq : write.collection = collection <;> simp [writtenTo, heq]

theorem mem_groupOf {group : String × List Document} (hgroup : group ∈ groups)
    {document : Document} (hin : document ∈ group.2) : document ∈ groupOf group.1 groups :=
  List.mem_flatMap.mpr ⟨group, List.mem_filter.mpr ⟨hgroup, by simp⟩, hin⟩

theorem mem_writtenTo {writes : List PendingWrite} {document : Document} :
    document ∈ writtenTo collection writes ↔ ⟨collection, document⟩ ∈ writes := by
  unfold writtenTo
  simp only [List.mem_map, List.mem_filter, decide_eq_true_eq]
  constructor
  · rintro ⟨write, ⟨hin, rfl⟩, rfl⟩
    exact hin
  · intro hin
    exact ⟨⟨collection, document⟩, ⟨hin, rfl⟩, rfl⟩

theorem writtenTo_append (collection : String) (writes later : List PendingWrite) :
    writtenTo collection (writes ++ later) =
      writtenTo collection writes ++ writtenTo collection later := by
  simp [writtenTo]

theorem findDocument_append (documents later : List Document) (id : DocId) :
    findDocument (documents ++ later) id =
      (findDocument documents id).or (findDocument later id) := List.find?_append

theorem lastWritten_append (writes later : List PendingWrite) (collection : String) (id : DocId) :
    lastWritten (writes ++ later) collection id =
      (lastWritten later collection id).or (lastWritten writes collection id) := by
  unfold lastWritten
  rw [writtenTo_append, List.reverse_append, findDocument_append]

theorem lastWritten_singleton (write : PendingWrite) (collection : String) (id : DocId) :
    lastWritten [write] collection id =
      if write.collection = collection ∧ write.document.id? = some id then some write.document
      else none := by
  unfold lastWritten writtenTo findDocument
  by_cases hcollection : write.collection = collection
  · by_cases hid : write.document.id? = some id <;> simp [hcollection, hid]
  · simp [hcollection]

theorem Work.pendingDocument?_eq (work : Work) (collection : String) (id : DocId) :
    work.pendingDocument? collection id = lastWritten work.pending collection id := by
  unfold pendingDocument? lastWritten findDocument writtenTo
  rw [← List.map_reverse, ← List.filter_reverse, List.find?_map, List.find?_filter]
  congr 2
  funext write
  rw [Bool.eq_iff_iff]
  simp

end Groups

/-! ### Counters -/

/-- The counter of a space is stored, or it is of no use. -/
def IdSpace.Resting (space : IdSpace) : Prop :=
  space.rule.kind = .incr → space.count = space.recorded

/-- Counters that are still to be stored before all spaces rest. -/
structure Work.Owes (work : Work) (counters : List (String × Nat)) : Prop where
  claims : ∀ entry ∈ counters, ∃ space ∈ work.spaces,
    space.collection = entry.1 ∧ space.count = entry.2
  others : ∀ space ∈ work.spaces, space.Resting ∨ space.collection ∈ counters.map (·.1)

theorem Work.owes_moved (work : Work) : work.Owes work.movedCounters where
  claims entry hentry := by
    unfold movedCounters at hentry
    rw [List.mem_mergeSort] at hentry
    obtain ⟨space, hspace, rfl⟩ := List.mem_map.mp hentry
    exact ⟨space, List.mem_of_mem_filter hspace, rfl, rfl⟩
  others space hspace := by
    by_cases hmoved : space.counterMoved = true
    · right
      unfold movedCounters
      refine List.mem_map.mpr ⟨(space.collection, space.count), ?_, rfl⟩
      rw [List.mem_mergeSort]
      exact List.mem_map.mpr ⟨space, List.mem_filter.mpr ⟨hspace, hmoved⟩, rfl⟩
    · left
      intro hkind
      simpa [IdSpace.counterMoved, hkind] using hmoved

section Recorded
variable {work : Work} {collection : String} {count : Nat}

theorem Work.mem_recorded {space : IdSpace} :
    space ∈ (work.recorded collection count).spaces ↔ ∃ old ∈ work.spaces,
      space = if old.collection == collection then { old with recorded := count } else old := by
  simp only [recorded, List.mem_map, eq_comm]

theorem Work.taken_recorded {other : String} {id : DocId} :
    (work.recorded collection count).Taken other id ↔ work.Taken other id := by
  unfold Taken
  constructor
  · rintro ⟨space, hspace, heq, hid⟩
    obtain ⟨old, hold, rfl⟩ := mem_recorded.mp hspace
    refine ⟨old, hold, ?_⟩
    split_ifs at heq hid
    · exact ⟨heq, hid⟩
    · exact ⟨heq, hid⟩
  · rintro ⟨old, hold, heq, hid⟩
    refine ⟨_, mem_recorded.mpr ⟨old, hold, rfl⟩, ?_⟩
    split_ifs
    · exact ⟨heq, hid⟩
    · exact ⟨heq, hid⟩

theorem Work.Owes.recorded {rest : List (String × Nat)}
    (hnodup : (work.spaces.map (·.collection)).Nodup)
    (h : work.Owes ((collection, count) :: rest)) : (work.recorded collection count).Owes rest where
  claims entry hentry := by
    obtain ⟨space, hspace, hcollection, hcount⟩ := h.claims entry (List.mem_cons_of_mem _ hentry)
    refine ⟨_, Work.mem_recorded.mpr ⟨space, hspace, rfl⟩, ?_⟩
    split_ifs
    · exact ⟨hcollection, hcount⟩
    · exact ⟨hcollection, hcount⟩
  others space hspace := by
    obtain ⟨old, hold, rfl⟩ := Work.mem_recorded.mp hspace
    obtain ⟨owed, howed, hcollection, hcount⟩ := h.claims _ List.mem_cons_self
    by_cases heq : old.collection = collection
    · left
      rw [if_pos (beq_iff_eq.mpr heq)]
      intro _
      have hsame := List.inj_on_of_nodup_map hnodup hold howed (heq.trans hcollection.symm)
      rw [hsame]
      exact hcount
    · rw [if_neg (by simpa using heq)]
      rcases h.others old hold with hrests | hin
      · exact Or.inl hrests
      · rcases List.mem_cons.mp hin with hsame | hin
        · exact absurd hsame heq
        · exact Or.inr hin

end Recorded

section Following
variable {registry : Registry} {store : MemoryStore} {collection : String} {count : Nat}

/-- Storing the counter of a space. -/
theorem IdSpace.Follows.record_own {space : IdSpace} (h : space.Follows registry store)
    (hcollection : space.collection = collection) (hcount : space.count = count) :
    ({ space with recorded := count } : IdSpace).Follows registry
      (store.record collection count) := by
  subst hcollection
  refine ⟨h.rule, ?_, ?_, ?_, h.admits, h.numbered⟩
  · simp only [MemoryStore.count_record, if_true]
  · simp only [MemoryStore.count_record, if_true]
    exact Nat.le_of_eq hcount.symm
  · exact fun id hid => h.stored id (MemoryStore.has_record.mp hid)

/-- Storing the counter of another collection. -/
theorem IdSpace.Follows.record_other {space : IdSpace} (h : space.Follows registry store)
    (hne : space.collection ≠ collection) :
    space.Follows registry (store.record collection count) := by
  have hkept : (store.record collection count).count space.collection =
      store.count space.collection := by
    rw [MemoryStore.count_record, if_neg (Ne.symm hne)]
  refine ⟨h.rule, ?_, ?_, ?_, h.admits, h.numbered⟩
  · rw [hkept]
    exact h.recorded
  · rw [hkept]
    exact h.ahead
  · exact fun id hid => h.stored id (MemoryStore.has_record.mp hid)

/-- Storing a counter that is owed. -/
theorem Work.Follows.record {work : Work} (h : work.Follows registry store)
    {rest : List (String × Nat)} (howes : work.Owes ((collection, count) :: rest)) :
    (work.recorded collection count).Follows registry (store.record collection count) where
  once := by
    have hsame : (work.recorded collection count).spaces.map (·.collection) =
        work.spaces.map (·.collection) := by
      simp only [Work.recorded, List.map_map]
      refine List.map_congr_left fun space _ => ?_
      simp only [Function.comp_apply]
      split_ifs <;> rfl
    rw [hsame]
    exact h.once
  each space hspace := by
    obtain ⟨owed, howed, hcollection, hcount⟩ := howes.claims _ List.mem_cons_self
    obtain ⟨old, hold, rfl⟩ := Work.mem_recorded.mp hspace
    have hfollows := h.each old hold
    by_cases heq : old.collection = collection
    · have hsame := List.inj_on_of_nodup_map h.once hold howed (heq.trans hcollection.symm)
      rw [if_pos (beq_iff_eq.mpr heq)]
      exact hfollows.record_own heq (hsame ▸ hcount)
    · rw [if_neg (by simpa using heq)]
      exact hfollows.record_other heq

/-- Storing documents whose ids the spaces contain. -/
theorem Work.Follows.persist {work : Work} (h : work.Follows registry store)
    {documents : List Document}
    (hstored : ∀ space ∈ work.spaces, ∀ id,
      (store.persist collection documents).Has space.collection id → id ∈ space.ids) :
    work.Follows registry (store.persist collection documents) where
  once := h.once
  each space hspace := by
    have hfollows := h.each space hspace
    refine ⟨hfollows.rule, ?_, ?_, hstored space hspace, hfollows.admits, hfollows.numbered⟩
    · rw [MemoryStore.count_persist]
      exact hfollows.recorded
    · rw [MemoryStore.count_persist]
      exact hfollows.ahead

end Following

/-! ### Moments of a commit -/

/-- **What holds at every moment of a commit**, of which `before` is the store at its beginning and
`taken` are the ids in use: those that are taken and those that were stored at its beginning. -/
structure Committing (registry : Registry) (known : String → DocId → Prop) (before : MemoryStore)
    (taken : String → DocId → Prop) (store : MemoryStore) (work : Work) : Prop where
  follows : work.Follows registry store
  sound : store.Sound registry known
  kept : ∀ collection id, before.Has collection id → store.Has collection id
  added : ∀ collection id, store.Has collection id → taken collection id
  counts : ∀ collection, before.count collection ≤ store.count collection
  taken : ∀ collection id, taken collection id ↔
    work.Taken collection id ∨ before.Has collection id

/-- A document that a commit may store. -/
structure Deliverable (registry : Registry) (known taken : String → DocId → Prop)
    (collection : String) (document : Document) : Prop where
  conform : ∃ tree, registry.tree? collection = some tree ∧ Conforms registry known tree document
  taken : ∃ id, document.id? = some id ∧ taken collection id

section Moments
variable {registry : Registry} {known taken : String → DocId → Prop} {before store : MemoryStore}
  {work : Work} {collection : String}

theorem Committing.record (h : Committing registry known before taken store work) {count : Nat}
    {rest : List (String × Nat)} (howes : work.Owes ((collection, count) :: rest)) :
    Committing registry known before taken (store.record collection count)
      (work.recorded collection count) := by
  obtain ⟨owed, howed, hcollection, hcount⟩ := howes.claims _ List.mem_cons_self
  have hahead : store.count collection ≤ count := by
    have := (h.follows.each owed howed).ahead
    rw [hcollection, hcount] at this
    exact this
  refine ⟨h.follows.record howes, h.sound.record hahead, ?_, ?_, ?_, ?_⟩
  · exact fun other id hid => MemoryStore.has_record.mpr (h.kept other id hid)
  · exact fun other id hid => h.added other id (MemoryStore.has_record.mp hid)
  · intro other
    rw [MemoryStore.count_record]
    split_ifs with heq
    · exact heq ▸ Nat.le_trans (h.counts collection) hahead
    · exact h.counts other
  · exact fun other id => (h.taken other id).trans (or_congr_left Work.taken_recorded.symm)

/-- When all spaces rest, the numbers in use are at most the stored counters. -/
theorem Committing.settled (h : Committing registry known before taken store work)
    (hrest : ∀ space ∈ work.spaces, space.Resting) (other : String) (n : Nat)
    (htaken : taken other (.number n)) : n ≤ store.count other := by
  rcases (h.taken other _).mp htaken with ⟨space, hspace, rfl, hid⟩ | hhas
  swap
  · exact h.sound.counted other n (h.kept other _ hhas)
  have hfollows := h.follows.each space hspace
  have hkind : space.rule.kind = .incr := by
    have hadmits := hfollows.admits _ hid
    cases hrule : space.rule with
    | incr most => rfl
    | uid least most => rw [hrule] at hadmits; cases hadmits
  rw [← hfollows.recorded, ← hrest space hspace hkind]
  exact hfollows.numbered n hid

theorem Committing.persist (h : Committing registry known before taken store work)
    (hrest : ∀ space ∈ work.spaces, space.Resting) {documents : List Document}
    (hdocuments : ∀ document ∈ documents, Deliverable registry known taken collection document) :
    Committing registry known before taken (store.persist collection documents) work := by
  have hstorable : ∀ document ∈ documents,
      MemoryStore.Storable registry known (store.count collection) collection document := by
    intro document hin
    refine ⟨(hdocuments document hin).conform, fun n hn => ?_⟩
    obtain ⟨id, hid, htaken⟩ := (hdocuments document hin).taken
    rw [hn] at hid
    cases hid
    exact h.settled hrest collection n htaken
  have hhas : ∀ other id, (store.persist collection documents).Has other id ↔
      store.Has other id ∨ (collection = other ∧ ∃ document ∈ documents, document.id? = some id) :=
    fun other id => MemoryStore.has_persist (h.sound.identified collection)
      (MemoryStore.Storable.identified hstorable)
  have hnew : ∀ other id, (collection = other ∧ ∃ document ∈ documents, document.id? = some id) →
      taken other id := by
    rintro other id ⟨rfl, document, hin, hid⟩
    obtain ⟨own, hown, htaken⟩ := (hdocuments document hin).taken
    rw [hid] at hown
    cases hown
    exact htaken
  have hcontained : ∀ space ∈ work.spaces, ∀ id,
      (store.persist collection documents).Has space.collection id → id ∈ space.ids := by
    intro space hspace id hid
    have hfollows := h.follows.each space hspace
    rcases (hhas _ id).mp hid with hid | hid
    · exact hfollows.stored id hid
    · rcases (h.taken _ id).mp (hnew _ id hid) with htaken | hhas
      · exact (Work.taken_iff h.follows.once hspace).mp htaken
      · exact hfollows.stored id (h.kept _ id hhas)
  refine ⟨h.follows.persist hcontained, h.sound.persist hstorable, ?_, ?_, ?_, h.taken⟩
  · exact fun other id hid => (hhas other id).mpr (Or.inl (h.kept other id hid))
  · intro other id hid
    rcases (hhas other id).mp hid with hid | hid
    · exact h.added other id hid
    · exact hnew other id hid
  · intro other
    rw [MemoryStore.count_persist]
    exact h.counts other

end Moments

/-! ### The steps of a commit -/

section Steps
variable {σ α : Type} {running : Running σ}

theorem ensures_write {change : Write σ α} {done : α → Running σ → Prop}
    {failed : Error → Running σ → Prop} :
    Ensures (Operation.write change) running done failed ↔
      Ensures change running.store (fun a store => done a { running with store })
        (fun e store => failed e { running with store }) := by
  unfold Ensures Operation.write
  rcases change running.store with ⟨result, store⟩
  cases result <;> rfl

variable {database : Database σ} {view : σ → MemoryStore} {faults : Prop}
  (hbackend : database.backend.ActsLike view faults) {registry : Registry}
  {known taken : String → DocId → Prop} {before : MemoryStore}
include hbackend

/-- Storing the counters that moved lets all spaces rest. -/
theorem recordAll_ensures (counters : List (String × Nat)) (howes : running.work.Owes counters)
    (h : Committing registry known before taken (view running.store) running.work) :
    Ensures (database.recordAll counters) running
      (fun _ after => Committing registry known before taken (view after.store) after.work ∧
        (∀ space ∈ after.work.spaces, space.Resting) ∧
        after.work.pending = running.work.pending ∧
        ∀ collection, (view after.store).documents collection =
          (view running.store).documents collection)
      (fun e after => faults ∧ ¬ e.Reuse ∧
        Committing registry known before taken (view after.store) after.work) := by
  induction counters generalizing running with
  | nil =>
    refine ⟨h, fun space hspace => ?_, rfl, fun _ => rfl⟩
    rcases howes.others space hspace with hrests | hin
    · exact hrests
    · cases hin
  | cons entry rest ih =>
    obtain ⟨collection, count⟩ := entry
    refine ensures_bind.mpr (ensures_write.mpr
      ((hbackend.record running.store collection count).mono (fun _ store hview => ?_) ?_))
    · refine ensures_bind.mpr (ensures_modify.mpr ?_)
      have hrecorded := h.record howes
      rw [← hview] at hrecorded
      refine (ih (howes.recorded h.follows.once) hrecorded).mono ?_ fun _ _ h => h
      rintro _ after ⟨hafter, hrests, hpending, hdocuments⟩
      refine ⟨hafter, hrests, hpending, fun other => ?_⟩
      rw [hdocuments other, hview, MemoryStore.documents_record]
    · rintro e store ⟨hfaults, hreuse, hview⟩
      exact ⟨hfaults, hreuse, hview.symm ▸ h⟩

/-- Storing groups of deliverable documents. -/
theorem persistGroups_ensures (groups : List (String × List Document))
    (hgroups : ∀ group ∈ groups, ∀ document ∈ group.2,
      Deliverable registry known taken group.1 document)
    (hrests : ∀ space ∈ running.work.spaces, space.Resting)
    (h : Committing registry known before taken (view running.store) running.work) :
    Ensures (database.persistGroups groups) running
      (fun _ after => Committing registry known before taken (view after.store) after.work ∧
        after.work = running.work ∧
        ∀ collection, (view after.store).documents collection =
          upsert ((view running.store).documents collection) (groupOf collection groups))
      (fun e after => faults ∧ ¬ e.Reuse ∧
        Committing registry known before taken (view after.store) after.work) := by
  induction groups generalizing running with
  | nil => exact ⟨h, rfl, fun _ => rfl⟩
  | cons group rest ih =>
    obtain ⟨collection, documents⟩ := group
    refine ensures_bind.mpr (ensures_write.mpr
      ((hbackend.persist running.store collection documents).mono (fun _ store hview => ?_) ?_))
    · have hpersisted := h.persist hrests (hgroups _ List.mem_cons_self)
      rw [← hview] at hpersisted
      have hrests' : ∀ space ∈ ({ running with store } : Running σ).work.spaces, space.Resting :=
        hrests
      refine (ih (fun group hgroup => hgroups group (List.mem_cons_of_mem _ hgroup)) hrests'
        hpersisted).mono ?_ fun _ _ h => h
      rintro _ after ⟨hafter, hwork, hdocuments⟩
      refine ⟨hafter, hwork, fun other => ?_⟩
      rw [hdocuments other]
      simp only [hview, MemoryStore.documents_persist, groupOf, List.filter_cons]
      by_cases heq : collection = other
      · simp [heq, upsert]
      · simp [heq]
    · rintro e store ⟨hfaults, hreuse, hview⟩
      exact ⟨hfaults, hreuse, hview.symm ▸ h⟩

/-- **A commit**, from the beginning to its end or to the failure of a write. -/
theorem commit_ensures {collection : String} {document : Document}
    (hwaiting : ∀ write ∈ running.work.pending,
      Deliverable registry known taken write.collection write.document)
    (hdocument : Deliverable registry known taken collection document)
    (h : Committing registry known before taken (view running.store) running.work) :
    Ensures (database.commit collection document) running
      (fun _ after => Committing registry known before taken (view after.store) after.work ∧
        after.work.pending = running.work.pending ∧
        ∀ other, (view after.store).documents other =
          upsert ((view running.store).documents other)
            (writtenTo other (running.work.pending ++ [⟨collection, document⟩])))
      (fun e after => faults ∧ ¬ e.Reuse ∧
        Committing registry known before taken (view after.store) after.work) := by
  refine Ensures.bind (recordAll_ensures hbackend _ running.work.owes_moved h) ?_
  rintro _ recorded ⟨hrecorded, hrests, hpending, hsame⟩
  refine ensures_bind.mpr (ensures_get.mpr ?_)
  refine Ensures.bind (persistGroups_ensures hbackend _ ?_ hrests hrecorded) ?_
  · intro group hgroup written hwritten
    have hin := mem_groupOf hgroup hwritten
    rw [groupOf_groups, mem_writtenTo, hpending] at hin
    exact hwaiting _ hin
  · rintro _ delivered ⟨hdelivered, hwork, hdocuments⟩
    refine ensures_write.mpr ((hbackend.persist delivered.store collection [document]).mono
      (fun _ store hview => ?_) ?_)
    · have hpersisted := hdelivered.persist (hwork ▸ hrests) (by
        intro other hother
        rw [List.mem_singleton.mp hother]
        exact hdocument)
      rw [← hview] at hpersisted
      refine ⟨hpersisted, by rw [← hpending, ← hwork], fun other => ?_⟩
      rw [hview, MemoryStore.documents_persist, hdocuments, hdocuments, hsame, hsame,
        groupOf_groups, groupOf_groups, hpending]
      by_cases heq : collection = other
      · simp [heq, writtenTo, upsert]
      · simp [heq, writtenTo]
    · rintro e store ⟨hfaults, hreuse, hview⟩
      exact ⟨hfaults, hreuse, hview.symm ▸ hdelivered⟩

end Steps

end DocumentDb
