import DocumentDb.Proofs.Database.Operations
import DocumentDb.Proofs.Document.Agreement
import Mathlib.Data.List.Sort

/-!
# Spaces that stay current

Operations on several documents look at a space once and keep it for all of them. After a document
was committed, each space that was looked at is still *current*: it is alike to the one that the
store would give now (`Current.alike_fresh`). So the next document is built and committed as by an
operation of its own (`buildAndCommit_same`).
-/

namespace DocumentDb

/-! ### Counters that have moved -/

namespace Work

section Moved
variable {context : Context} {work other : Work} {space : IdSpace}

theorem space?_of_mem (hnodup : (work.spaces.map (·.collection)).Nodup)
    (hin : space ∈ work.spaces) : work.space? space.collection = some space := by
  cases hspace : work.space? space.collection with
  | none => exact absurd rfl (space?_none hspace space hin)
  | some found =>
    obtain ⟨hfound, hcollection⟩ := space?_some hspace
    rw [List.inj_on_of_nodup_map hnodup hfound hin hcollection]

theorem found_of_mem (hnodup : (work.spaces.map (·.collection)).Nodup)
    (hin : space ∈ work.spaces) : work.found context space.collection = .ok space := by
  unfold found
  rw [space?_of_mem hnodup hin]

/-- A space that a step finds has moved its counter only if it was looked at. -/
theorem mem_of_found_moved {collection : String}
    (h : work.found context collection = .ok space) (hmoved : space.counterMoved = true) :
    space ∈ work.spaces := by
  unfold found at h
  split at h
  · next hspace =>
    cases h
    exact (space?_some hspace).1
  · obtain ⟨tree, _, h⟩ := bind_ok_iff.mp h
    obtain ⟨state, _, h⟩ := bind_ok_iff.mp h
    cases h
    simp [IdSpace.counterMoved, IdSpace.ofState] at hmoved

/-- The moved counters are those of the spaces that a step finds. -/
theorem mem_movedCounters (hnodup : (work.spaces.map (·.collection)).Nodup)
    {entry : String × Nat} : entry ∈ work.movedCounters ↔
      ∃ space, work.found context entry.1 = .ok space ∧ space.counterMoved = true ∧
        space.count = entry.2 := by
  unfold movedCounters
  simp only [List.mem_mergeSort, List.mem_map, List.mem_filter]
  constructor
  · rintro ⟨space, ⟨hin, hmoved⟩, rfl⟩
    exact ⟨space, found_of_mem hnodup hin, hmoved, rfl⟩
  · rintro ⟨space, hfound, hmoved, hcount⟩
    refine ⟨space, ⟨mem_of_found_moved hfound hmoved, hmoved⟩, ?_⟩
    rw [found_collection hfound, hcount]

theorem movedCounters_nodup (hnodup : (work.spaces.map (·.collection)).Nodup) :
    (work.movedCounters.map (·.1)).Nodup := by
  unfold movedCounters
  refine ((List.mergeSort_perm _ _).map _).nodup_iff.mpr ?_
  rw [List.map_map]
  exact hnodup.sublist (List.filter_sublist.map _)

theorem movedCounters_sorted : work.movedCounters.Pairwise fun a b => a.1 ≤ b.1 := by
  unfold movedCounters
  refine (List.pairwise_mergeSort (fun a b c => ?_) (fun a b => ?_) _).imp fun h =>
    of_decide_eq_true h
  · simp only [decide_eq_true_eq]
    exact fun h h' => String.le_trans h h'
  · simp only [Bool.or_eq_true, decide_eq_true_eq]
    exact String.le_total a.1 b.1

/-- **Alike work has moved the same counters.** -/
theorem Alike.movedCounters (h : work.Alike context other)
    (hnodup : (work.spaces.map (·.collection)).Nodup)
    (hnodup' : (other.spaces.map (·.collection)).Nodup) :
    work.movedCounters = other.movedCounters := by
  have hmoved : ∀ {space space' : IdSpace}, space.Alike context space' →
      space.counterMoved = true → space'.counterMoved = true ∧ space.count = space'.count := by
    intro space space' halike hmoved
    unfold IdSpace.counterMoved at hmoved ⊢
    simp only [Bool.and_eq_true, beq_iff_eq, bne_iff_ne] at hmoved ⊢
    have hcount := halike.count hmoved.1
    rw [← halike.rule, ← hcount, ← halike.recorded]
    exact ⟨hmoved, rfl⟩
  have hsame : ∀ entry, entry ∈ work.movedCounters ↔ entry ∈ other.movedCounters := by
    intro entry
    rw [mem_movedCounters hnodup, mem_movedCounters hnodup']
    have hfound := h.found entry.1
    constructor
    · rintro ⟨space, hspace, hspaceMoved, hcount⟩
      rw [hspace] at hfound
      generalize other.found context entry.1 = result at hfound ⊢
      cases hfound with
      | ok halike =>
        obtain ⟨hother, hsame⟩ := hmoved halike hspaceMoved
        exact ⟨_, rfl, hother, hsame ▸ hcount⟩
    · rintro ⟨space, hspace, hspaceMoved, hcount⟩
      rw [hspace] at hfound
      generalize work.found context entry.1 = result at hfound ⊢
      cases hfound with
      | ok halike =>
        obtain ⟨hother, hsame⟩ := hmoved halike.symm hspaceMoved
        exact ⟨_, rfl, hother, hsame ▸ hcount⟩
  have hnames := movedCounters_nodup hnodup
  have hperm : work.movedCounters.Perm other.movedCounters :=
    (List.perm_ext_iff_of_nodup hnames.of_map (movedCounters_nodup hnodup').of_map).mpr hsame
  refine hperm.eq_of_pairwise (fun a b ha hb hle hge => ?_) movedCounters_sorted
    movedCounters_sorted
  exact List.inj_on_of_nodup_map hnames ha ((hsame b).mpr hb) (String.le_antisymm hle hge)

end Moved

end Work

/-! ### Runs that a commit does not tell apart -/

section Twins
variable {σ α β : Type}

/-- **Two outcomes are the same** for all that comes later: a value or an error, the store, and how
many random texts were drawn. -/
structure SameEffect (outcome other : Except Error α × Running σ) : Prop where
  result : outcome.1 = other.1
  store : outcome.2.store = other.2.store
  drawn : outcome.2.work.drawn = other.2.work.drawn

/-- Steps with the same effect, and then others with the same effect. -/
theorem SameEffect.bind {first first' : Operation σ α} {next next' : α → Operation σ β}
    {running other : Running σ} (hfirst : SameEffect (first running) (first' other))
    (hnext : ∀ a after after', first running = (.ok a, after) → first' other = (.ok a, after') →
      after.store = after'.store → after.work.drawn = after'.work.drawn →
      SameEffect (next a after) (next' a after')) :
    SameEffect ((first >>= next) running) ((first' >>= next') other) := by
  rw [step_bind, step_bind]
  rcases hstep : first running with ⟨result, after⟩
  rcases hstep' : first' other with ⟨result', after'⟩
  rw [hstep, hstep'] at hfirst
  obtain rfl : result = result' := hfirst.result
  cases result with
  | error e => exact ⟨rfl, hfirst.store, hfirst.drawn⟩
  | ok a => exact hnext a after after' hstep hstep' hfirst.store hfirst.drawn

/-- Two states of a database that differ in the spaces that were looked at. -/
structure Running.Twin (running other : Running σ) : Prop where
  store : running.store = other.store
  pending : running.work.pending = other.work.pending
  drawn : running.work.drawn = other.work.drawn

/-- A step that does not tell twins apart. -/
def KeepsTwins (step : Operation σ α) : Prop :=
  ∀ running other : Running σ, running.Twin other →
    (step running).1 = (step other).1 ∧ (step running).2.Twin (step other).2

theorem KeepsTwins.bind {first : Operation σ α} {next : α → Operation σ β}
    (hfirst : KeepsTwins first) (hnext : ∀ a, KeepsTwins (next a)) :
    KeepsTwins (first >>= next) := by
  intro running other htwin
  obtain ⟨hresult, hafter⟩ := hfirst running other htwin
  rw [step_bind, step_bind]
  rcases hstep : first running with ⟨result, after⟩
  rcases hstep' : first other with ⟨result', after'⟩
  rw [hstep, hstep'] at hresult hafter
  cases hresult
  cases result with
  | error e => exact ⟨rfl, hafter⟩
  | ok a => exact hnext a after after' hafter

theorem keepsTwins_pure {a : α} : KeepsTwins (pure a : Operation σ α) := fun _ _ h => ⟨rfl, h⟩

theorem keepsTwins_write {change : Write σ α} : KeepsTwins (Operation.write change) := by
  intro running other htwin
  unfold Operation.write
  rw [htwin.store]
  exact ⟨rfl, rfl, htwin.pending, htwin.drawn⟩

/-- A step that looks at no more than what twins share. -/
theorem KeepsTwins.get {next : Running σ → Operation σ β}
    (hnext : ∀ running, KeepsTwins (next running))
    (hsame : ∀ running other : Running σ, running.Twin other → next running = next other) :
    KeepsTwins (MonadState.get >>= next) := by
  intro running other htwin
  have hget : ∀ start : Running σ, (MonadState.get >>= next : Operation σ β) start =
    next start start := fun _ => rfl
  rw [hget, hget, hsame running other htwin]
  exact hnext other running other htwin

variable (database : Database σ)

theorem recordAll_keepsTwins (counters : List (String × Nat)) :
    KeepsTwins (database.recordAll counters) := by
  induction counters with
  | nil => exact keepsTwins_pure
  | cons entry rest ih =>
    refine keepsTwins_write.bind fun _ => KeepsTwins.bind ?_ fun _ => ih
    exact fun running other htwin => ⟨rfl, htwin.store, htwin.pending, htwin.drawn⟩

theorem persistGroups_keepsTwins (groups : List (String × List Document)) :
    KeepsTwins (database.persistGroups groups) := by
  induction groups with
  | nil => exact keepsTwins_pure
  | cons group rest ih => exact keepsTwins_write.bind fun _ => ih

/-- **Twins with the same moved counters commit alike.** -/
theorem commit_twins {running other : Running σ} (htwin : running.Twin other)
    (hcounters : running.work.movedCounters = other.work.movedCounters) (collection : String)
    (document : Document) :
    (database.commit collection document running).1 =
        (database.commit collection document other).1 ∧
      (database.commit collection document running).2.Twin
        (database.commit collection document other).2 := by
  have hcommit : ∀ start : Running σ, database.commit collection document start =
      (database.recordAll start.work.movedCounters >>= fun _ =>
        get >>= fun running : Running σ => do
          database.persistGroups (groups running.work.pending)
          Operation.write (database.backend.persist collection [document])) start := fun _ => rfl
  have hrest : KeepsTwins (get >>= fun running : Running σ => do
      database.persistGroups (groups running.work.pending)
      Operation.write (database.backend.persist collection [document])) := by
    refine KeepsTwins.get (fun running => ?_) fun running other htwin => ?_
    · exact (persistGroups_keepsTwins database _).bind fun _ => keepsTwins_write
    · rw [htwin.pending]
  rw [hcommit, hcommit, hcounters]
  exact (recordAll_keepsTwins database _).bind (fun _ => hrest) _ _ htwin

/-- So they commit a document to the same effect. -/
theorem commit_same {running other : Running σ} (htwin : running.Twin other)
    (hcounters : running.work.movedCounters = other.work.movedCounters) (collection : String)
    (document : Document) :
    SameEffect
      (match database.commit collection document running with
        | (.ok _, after) => (.ok document, after)
        | (.error e, after) => (.error e, after))
      (match database.commit collection document other with
        | (.ok _, after) => (.ok document, after)
        | (.error e, after) => (.error e, after)) := by
  obtain ⟨hcommit, htwin⟩ := commit_twins database htwin hcounters collection document
  rcases hdone : database.commit collection document running with ⟨done, after⟩
  rcases hdone' : database.commit collection document other with ⟨done', after'⟩
  rw [hdone, hdone'] at hcommit htwin
  obtain rfl : done = done' := hcommit
  cases done with
  | error e => exact ⟨rfl, htwin.store, htwin.drawn⟩
  | ok _ => exact ⟨rfl, htwin.store, htwin.drawn⟩

/-- An operation of its own starts with the store, with fresh work and with the bytes drawn. -/
theorem start_buildAndCommit (now : Instant) (collection : String) (step : Build Document)
    {running other : Running σ} (hstore : other.store = running.store)
    (hdrawn : other.work.drawn = running.work.drawn) :
    (Operation.start >>= fun _ => database.buildAndCommit now collection step) other =
      database.buildAndCommit now collection step ⟨running.store, running.work.fresh⟩ := by
  obtain ⟨otherStore, otherWork⟩ := other
  obtain rfl : otherStore = running.store := hstore
  have hwork : otherWork.fresh = running.work.fresh := by
    unfold Work.fresh
    rw [show otherWork.drawn = running.work.drawn from hdrawn]
  rw [← hwork]
  rfl

/-- Building and committing, as a run of the parts. -/
theorem buildAndCommit_eq (now : Instant) (collection : String) (step : Build Document)
    (running : Running σ) :
    database.buildAndCommit now collection step running =
      match step (database.context now running.store) running.work.cleared with
      | (.error e, built) => (.error e, { running with work := built })
      | (.ok document, built) =>
        match database.commit collection document { running with work := built } with
        | (.ok _, after) => (.ok document, after)
        | (.error e, after) => (.error e, after) := by
  have hbuild : database.buildAndCommit now collection step running =
      (database.build now step >>= fun document =>
        database.commit collection document >>= fun _ => pure document)
        { running with work := running.work.cleared } := rfl
  rw [hbuild, step_bind]
  unfold Database.build
  dsimp only
  rcases step (database.context now running.store) running.work.cleared with ⟨result, built⟩
  cases result with
  | error e => rfl
  | ok document =>
    dsimp only
    rw [step_bind]
    rcases database.commit collection document { running with work := built } with ⟨done, after⟩
    cases done <;> rfl

end Twins

/-! ### Spaces after a commit -/

namespace Work

/-- The work after all moved counters were stored. -/
def settled (work : Work) : Work :=
  work.movedCounters.foldl (fun work entry => work.recorded entry.1 entry.2) work

theorem collections_recorded (work : Work) (collection : String) (count : Nat) :
    (work.recorded collection count).spaces.map (·.collection) =
      work.spaces.map (·.collection) := by
  simp only [recorded, List.map_map]
  refine List.map_congr_left fun space _ => ?_
  simp only [Function.comp_apply]
  split_ifs <;> rfl

/-- When the counters that are owed were stored, all spaces rest, and they are the same but for
that. -/
theorem Owes.settled {work : Work} {counters : List (String × Nat)} (h : work.Owes counters)
    (hnodup : (work.spaces.map (·.collection)).Nodup) :
    ∀ space ∈ (counters.foldl (fun work entry => work.recorded entry.1 entry.2) work).spaces,
      space.Resting ∧ ∃ old ∈ work.spaces, space.collection = old.collection ∧
        space.shardMax = old.shardMax := by
  induction counters generalizing work with
  | nil =>
    intro space hin
    refine ⟨?_, space, hin, rfl, rfl⟩
    rcases h.others space hin with hrests | howed
    · exact hrests
    · cases howed
  | cons entry rest ih =>
    intro space hin
    obtain ⟨hrests, middle, hmiddle, hcollection, hshardMax⟩ :=
      ih (h.recorded hnodup) (by rw [collections_recorded]; exact hnodup) space hin
    obtain ⟨old, hold, rfl⟩ := mem_recorded.mp hmiddle
    refine ⟨hrests, old, hold, ?_, ?_⟩
    · rw [hcollection]
      split_ifs <;> rfl
    · rw [hshardMax]
      split_ifs <;> rfl

end Work

section Commits
variable {σ : Type} {database : Database σ} {view : σ → MemoryStore} {faults : Prop}
  {running : Running σ} (hbackend : database.backend.ActsLike view faults)
include hbackend

theorem recordAll_work (counters : List (String × Nat)) :
    Ensures (database.recordAll counters) running
      (fun _ after =>
        after.work = counters.foldl (fun work entry => work.recorded entry.1 entry.2)
          running.work ∧
        (view after.store).shardMax = (view running.store).shardMax)
      (fun _ _ => faults) := by
  induction counters generalizing running with
  | nil => exact ⟨rfl, rfl⟩
  | cons entry rest ih =>
    refine ensures_bind.mpr (ensures_write.mpr ((hbackend.record running.store entry.1
      entry.2).mono (fun _ store hview => ?_) fun _ _ h => h.1))
    refine ensures_bind.mpr (ensures_modify.mpr (ih.mono ?_ fun _ _ h => h))
    rintro _ after ⟨hwork, hshardMax⟩
    exact ⟨hwork, hshardMax.trans (by rw [hview]; rfl)⟩

theorem persistGroups_work (groups : List (String × List Document)) :
    Ensures (database.persistGroups groups) running
      (fun _ after => after.work = running.work ∧
        (view after.store).shardMax = (view running.store).shardMax)
      (fun _ _ => faults) := by
  induction groups generalizing running with
  | nil => exact ⟨rfl, rfl⟩
  | cons group rest ih =>
    refine ensures_bind.mpr (ensures_write.mpr ((hbackend.persist running.store group.1
      group.2).mono (fun _ store hview => ?_) fun _ _ h => h.1))
    refine ih.mono ?_ fun _ _ h => h
    rintro _ after ⟨hwork, hshardMax⟩
    exact ⟨hwork, hshardMax.trans (by rw [hview]; rfl)⟩

/-- A commit settles the work; it fails only if writes may fail. -/
theorem commit_work (collection : String) (document : Document) :
    Ensures (database.commit collection document) running
      (fun _ after => after.work = running.work.settled ∧
        (view after.store).shardMax = (view running.store).shardMax)
      (fun _ _ => faults) := by
  refine Ensures.bind (recordAll_work hbackend _) ?_
  rintro _ recorded ⟨hrecorded, hmeasured⟩
  refine ensures_bind.mpr (ensures_get.mpr ?_)
  refine Ensures.bind (persistGroups_work hbackend _) ?_
  rintro _ delivered ⟨hdelivered, hmeasured'⟩
  refine ensures_write.mpr ((hbackend.persist delivered.store collection [document]).mono
    (fun _ store hview => ?_) fun _ _ h => h.1)
  refine ⟨hdelivered.trans hrecorded, ?_⟩
  rw [hview]
  exact hmeasured'.trans hmeasured

end Commits

/-! ### Current work -/

section Current
variable {σ : Type} {database : Database σ} {view : σ → MemoryStore} {faults : Prop}
  {running : Running σ}

/-- **The spaces that were looked at are current** between two documents of an operation. -/
structure Running.Current (database : Database σ) (view : σ → MemoryStore) (running : Running σ) :
    Prop where
  ready : running.Ready database view True
  resting : ∀ space ∈ running.work.spaces, space.Resting
  measured : ∀ space ∈ running.work.spaces, space.shardMax = (view running.store).shardMax

theorem fresh_current (hsound : (view running.store).Sound database.registry
    ((view running.store).Knows True)) :
    ({ running with work := running.work.fresh } : Running σ).Current database view where
  ready := fresh_ready hsound
  resting _ h := by cases h
  measured _ h := by cases h

/-- What work that has looked at nothing finds is what the store gives now. -/
theorem found_fresh {collection : String} {tree : Tree} {state : StoreState}
    (htree : database.registry.tree collection = .ok tree)
    (hstate : database.backend.state running.store collection = .ok state) (now : Instant) :
    running.work.fresh.found (database.context now running.store) collection =
      .ok (IdSpace.ofState tree state) := by
  have hfound : running.work.fresh.found (database.context now running.store) collection = (do
      let tree ← database.registry.tree collection
      let state ← database.backend.state running.store collection
      pure (IdSpace.ofState tree state)) := rfl
  rw [hfound, htree, hstate]
  rfl

variable (hbackend : database.backend.ActsLike view faults)
include hbackend

/-- What the store says of the ids of a collection. -/
theorem state_of_sound {store : σ}
    (hsound : (view store).Sound database.registry ((view store).Knows True))
    (collection : String) : ∃ ids, database.backend.state store collection =
        .ok ⟨(view store).count collection, ids, (view store).shardMax⟩ ∧
      ∀ id, id ∈ ids ↔ (view store).Has collection id := by
  obtain ⟨ids, hstate, hids⟩ := MemoryStore.state_identified (hsound.identified collection)
  exact ⟨ids, (hbackend.state store collection).trans hstate, hids⟩

/-- A space that was looked at is alike to the one that the store gives now. -/
theorem Running.Current.alike_space (h : running.Current database view) (now : Instant)
    {space : IdSpace} (hin : space ∈ running.work.spaces) {tree : Tree}
    (htree : database.registry.tree? space.collection = some tree) {state : StoreState}
    (hstate : database.backend.state running.store space.collection = .ok state) :
    space.Alike (database.context now running.store) (IdSpace.ofState tree state) := by
  have hfollows := h.ready.follows.each space hin
  obtain ⟨ids, hthere, hids⟩ := state_of_sound hbackend h.ready.sound space.collection
  rw [hthere] at hstate
  cases hstate
  have hmeasured := h.measured space hin
  refine
    { collection := (Registry.tree?_collection htree).symm
      rule := ?_
      count := fun hkind => (h.resting space hin hkind).trans hfollows.recorded
      recorded := hfollows.recorded
      ids := fun id => ?_
      shardMax := hmeasured
      measured := fun state hread => ?_ }
  · obtain ⟨other, hother, hrule⟩ := hfollows.rule
    rw [htree] at hother
    cases hother
    exact hrule
  · rw [← Work.taken_iff h.ready.follows.once hin]
    refine ⟨fun htaken => (hids id).mpr (h.ready.covered _ _ htaken), fun hid => ?_⟩
    exact ⟨space, hin, rfl, hfollows.stored id ((hids id).mp hid)⟩
  · have hsame := hthere.symm.trans hread
    cases hsame
    exact hmeasured

/-- **Current work is alike to work that has looked at nothing.** -/
theorem Running.Current.alike_fresh (h : running.Current database view) (now : Instant) :
    running.work.cleared.Alike (database.context now running.store) running.work.fresh where
  pending := rfl
  drawn := rfl
  found collection := by
    cases hspace : running.work.space? collection with
    | some space =>
      obtain ⟨hin, rfl⟩ := Work.space?_some hspace
      obtain ⟨tree, htree, -⟩ := (h.ready.follows.each space hin).rule
      obtain ⟨ids, hstate, -⟩ := state_of_sound hbackend h.ready.sound space.collection
      have hcleared : running.work.cleared.found (database.context now running.store)
          space.collection = .ok space := by
        unfold Work.found
        rw [show running.work.cleared.space? space.collection = some space from hspace]
      rw [hcleared, found_fresh (Registry.tree_ok_iff.mpr htree) hstate]
      exact .ok (h.alike_space hbackend now hin htree hstate)
    | none =>
      have hcleared : running.work.cleared.found (database.context now running.store) collection =
          running.work.fresh.found (database.context now running.store) collection := by
        unfold Work.found
        rw [show running.work.cleared.space? collection = none from hspace]
        rfl
      rw [hcleared]
      cases htree : database.registry.tree collection with
      | error e =>
        have hfresh : running.work.fresh.found (database.context now running.store) collection =
            .error e := by
          show (database.registry.tree collection >>= _ : Except Error IdSpace) = _
          rw [htree]
          rfl
        rw [hfresh]
        exact .error
      | ok tree =>
        obtain ⟨ids, hstate, -⟩ := state_of_sound hbackend h.ready.sound collection
        rw [found_fresh htree hstate]
        refine .ok ⟨rfl, rfl, fun _ => rfl, rfl, fun _ => Iff.rfl, rfl, fun state hread => ?_⟩
        have hthere : database.backend.state running.store collection = .ok state := by
          rw [← Registry.tree?_collection (Registry.tree_ok_iff.mp htree)]
          exact hread
        have hsame := hstate.symm.trans hthere
        cases hsame
        rfl

/-- In alike work the sizes of shards are those of the store. -/
theorem measured_of_alike {now : Instant} {store : σ}
    (hsound : (view store).Sound database.registry ((view store).Knows True)) {work other : Work}
    (honce : (work.spaces.map (·.collection)).Nodup)
    (halike : work.Alike (database.context now store) other) {space : IdSpace}
    (hin : space ∈ work.spaces) : space.shardMax = (view store).shardMax := by
  obtain ⟨ids, hstate, _⟩ := state_of_sound hbackend hsound space.collection
  have hfound := halike.found space.collection
  rw [Work.found_of_mem honce hin] at hfound
  generalize other.found (database.context now store) space.collection = result at hfound
  cases hfound with
  | ok hspace => exact hspace.measured _ hstate

variable (hregistry : database.registry.Proper) (hsource : database.source.Exact)
  {collection : String} {step : Build Document}
include hregistry hsource

/-- A collection has one space in the work that a step leaves behind. -/
theorem built_once (hready : running.Ready database view True)
    (hdelivers : ∀ now, (database.ground view now True (fun _ _ => True) running.store).Sound →
      Delivers (database.ground view now True (fun _ _ => True) running.store) collection step)
    (now : Instant) :
    ((step (database.context now running.store) running.work.cleared).2.spaces.map
      (·.collection)).Nodup := by
  have hground : (database.ground view now True (fun _ _ => True) running.store).Sound :=
    ground_sound hbackend hregistry hsource hready.sound
  have hbuilds := hdelivers now hground _ (hready.cleared.work_sound rfl)
  exact (hbuilds.mono (fun _ _ h => h.1.follows.once) fun _ _ h => h.1.once).state

variable (hcurrent : running.Current database view)
  (hdelivers : ∀ now, (database.ground view now True (fun _ _ => True) running.store).Sound →
    Delivers (database.ground view now True (fun _ _ => True) running.store) collection step)
include hcurrent hdelivers

/-- A document of an operation on several is built and committed as by an operation of its own, at
another time. -/
theorem buildAndCommit_same {other : Running σ}
    (hstore : other.store = running.store) (hdrawn : other.work.drawn = running.work.drawn)
    {now now' : Instant}
    (hagrees : Build.AgreesAlone (database.context now running.store) now' step) :
    SameEffect (database.buildAndCommit now collection step running)
      ((Operation.start >>= fun _ => database.buildAndCommit now' collection step) other) := by
  have hcleared : running.work.fresh.cleared = running.work.fresh := rfl
  obtain ⟨hresult, halike⟩ := hagrees _ _ (hcurrent.alike_fresh hbackend now)
  have honce := built_once hbackend hregistry hsource hcurrent.ready hdelivers now
  have honce' : ((step (database.context now' running.store) running.work.fresh).2.spaces.map
      (·.collection)).Nodup :=
    built_once hbackend hregistry hsource (fresh_ready hcurrent.ready.sound) hdelivers now'
  rw [start_buildAndCommit database now' collection step hstore hdrawn, buildAndCommit_eq,
    buildAndCommit_eq, hcleared]
  change Matches Eq _ (step (database.context now' running.store) running.work.fresh).1 at hresult
  change Work.Alike _ _ (step (database.context now' running.store) running.work.fresh).2 at halike
  rcases hrun : step (database.context now running.store) running.work.cleared with
    ⟨result, built⟩
  rcases hrun' : step (database.context now' running.store) running.work.fresh with
    ⟨result', built'⟩
  rw [hrun, hrun'] at hresult halike
  rw [hrun] at honce
  rw [hrun'] at honce'
  obtain rfl : result = result' := hresult.eq
  cases result with
  | error e => exact ⟨rfl, rfl, halike.drawn⟩
  | ok document =>
    exact commit_same database
      (show Running.Twin { running with work := built } ⟨running.store, built'⟩ from
        ⟨rfl, halike.pending, halike.drawn⟩)
      (halike.movedCounters honce honce') collection document

omit hcurrent hdelivers hregistry hsource in
/-- Where writes do not fail, building and committing fails only if building does, and then leaves
the store as it was. -/
theorem buildAndCommit_failed (hfaults : ¬ faults) {now : Instant} {e : Error} {after : Running σ}
    (h : database.buildAndCommit now collection step running = (.error e, after)) :
    (step (database.context now running.store) running.work.cleared).1 = .error e ∧
      after.store = running.store := by
  rw [buildAndCommit_eq] at h
  rcases hrun : step (database.context now running.store) running.work.cleared with
    ⟨result, built⟩
  rw [hrun] at h
  cases result with
  | error e => cases h; exact ⟨rfl, rfl⟩
  | ok document =>
    dsimp only at h
    rcases hcommit : database.commit collection document { running with work := built } with
      ⟨done, last⟩
    have hwork : Ensures (database.commit collection document)
        ({ running with work := built } : Running σ) _ _ := commit_work hbackend _ _
    rw [Ensures, hcommit] at hwork
    cases done with
    | error e => exact absurd hwork hfaults
    | ok _ => rw [hcommit] at h; cases h

/-- **After a document was committed** the spaces that were looked at are current again. -/
theorem buildAndCommit_current {now : Instant}
    (hagrees : Build.AgreesAlone (database.context now running.store) now step) :
    Ensures (database.buildAndCommit now collection step) running
      (fun _ after => after.Current database view) (fun _ _ => True) := by
  have hcarries : Carries database view True (fun _ _ => True) running
      (database.buildAndCommit now collection step) _ :=
    buildAndCommit_carries hbackend hregistry hsource (fun _ => trivial) (hdelivers now)
  have hready := (hcarries hcurrent.ready).mono (fun _ _ h => h.1) fun _ _ _ => trivial
  have honce := built_once hbackend hregistry hsource hcurrent.ready hdelivers now
  have halike := (hagrees _ _ (hcurrent.alike_fresh hbackend now)).2
  have hwork : Ensures (database.buildAndCommit now collection step) running
      (fun _ after => (∀ space ∈ after.work.spaces, space.Resting) ∧
        ∀ space ∈ after.work.spaces, space.shardMax = (view after.store).shardMax)
      (fun _ _ => True) := by
    refine ensures_of_eq (fun document after heq => ?_) fun _ _ _ => trivial
    rw [buildAndCommit_eq] at heq
    rcases hrun : step (database.context now running.store) running.work.cleared with
      ⟨result, built⟩
    rw [hrun] at heq honce halike
    cases result with
    | error e => cases heq
    | ok document =>
      dsimp only at heq
      rcases hcommit : database.commit collection document { running with work := built } with
        ⟨done, last⟩
      rw [hcommit] at heq
      cases done with
      | error e => cases heq
      | ok _ =>
        cases heq
        obtain ⟨hwork, hshardMax⟩ := (commit_work hbackend collection document).of_ok hcommit
        have hsettled := built.owes_moved.settled honce
        rw [hwork]
        refine ⟨fun space hin => (hsettled space hin).1, fun space hin => ?_⟩
        obtain ⟨_, old, hold, _, hsame⟩ := hsettled space hin
        rw [hshardMax, hsame]
        exact measured_of_alike hbackend hcurrent.ready.sound honce halike hold
  exact (hready.and hwork).mono (fun _ _ h => ⟨h.1, h.2.1, h.2.2⟩) fun _ _ _ => trivial

end Current

/-! ### Changes of one document -/

/-- **A change that lets no other document wait** writes its document alone, and if building fails
it writes nothing. -/
theorem changeOne_alone {σ : Type} {database : Database σ} {view : σ → MemoryStore} {faults : Prop}
    {running : Running σ} (hbackend : database.backend.ActsLike view faults)
    (hregistry : database.registry.Proper) (hsource : database.source.Exact) (hfaults : ¬ faults)
    (hsound : (view running.store).Sound database.registry ((view running.store).Knows True))
    {collection : Collection σ} (hcollection : collection.database = database) {now : Instant}
    {id : DocId} {existing : Document}
    (hfound : findDocument ((view running.store).documents collection.name) id = some existing)
    {patch : Value} {P : Document → Prop} {failed : Error → Prop}
    (hbuilds : Ensures (Build.change collection.name existing patch
        (database.context now running.store)) running.work.fresh
      (fun changed built => P changed ∧ changed.id? = some id ∧ built.pending = [])
      (fun e _ => failed e)) :
    Ensures (collection.changeOne now existing patch)
      { running with work := running.work.fresh }
      (fun changed after => P changed ∧
        ∀ other own, findDocument ((view after.store).documents other) own =
          if other = collection.name ∧ own = id then some changed
          else findDocument ((view running.store).documents other) own)
      (fun e after => after.store = running.store ∧ failed e) := by
  subst hcollection
  have hready : ({ running with work := running.work.fresh } : Running σ).Ready
      collection.database view True := fresh_ready hsound
  have hcarries : Carries collection.database view True (fun _ _ => True)
      { running with work := running.work.fresh } (collection.changeOne now existing patch) _ :=
    buildAndCommit_carries hbackend hregistry hsource (fun _ => trivial) fun hground =>
      change_delivers hground (hsound.changeable (findDocument_eq_some hfound).1) fun _ _ _ =>
        trivial
  refine ((hcarries hready).and ensures_self).mono ?_ ?_
  · rintro changed after ⟨⟨-, -, -, built, hbuilt, -, hdocuments⟩, -⟩
    obtain ⟨hchanged, hid, hpending⟩ := hbuilds.of_ok hbuilt
    refine ⟨hchanged, fun other own => ?_⟩
    have hpending : built.pending = [] := hpending
    rw [hdocuments, hpending, List.nil_append, lastWritten_singleton]
    by_cases hsame : other = collection.name ∧ own = id
    · obtain ⟨rfl, rfl⟩ := hsame
      rw [if_pos ⟨rfl, hid⟩, if_pos ⟨rfl, rfl⟩, Option.some_or]
    · rw [if_neg hsame, if_neg, Option.none_or]
      rintro ⟨rfl, hother⟩
      exact hsame ⟨rfl, Option.some.inj (hother.symm.trans hid)⟩
  · rintro e after ⟨-, hfailed⟩
    obtain ⟨hbuild, hstore⟩ := buildAndCommit_failed hbackend hfaults hfailed
    exact ⟨hstore, hbuilds.of_error (Prod.ext hbuild rfl)⟩

end DocumentDb
