import DocumentDb.Proofs.Database.Operations

/-!
# Calls

A call is one of the operations of a collection that change documents, with what it is given.
Whether it succeeds or fails, it leaves a sound store behind, and no call fails because a generated
number is in use (`perform_settles`). Removing documents leaves references without targets, so after
it a store is sound only loosely.
-/

namespace DocumentDb

/-- A call of an operation that changes documents. -/
inductive Call where
  | insert (raw : Value)
  | insertMany (raws : List Value)
  | updateById (id : DocId) (patch : Value)
  | updateMany (query : Query) (patch : Value)
  | deleteById (id : DocId)
  | deleteMany (query : Query)
  | insertInto (id : DocId) (path : String) (values : List Value)
  | removeFrom (id : DocId) (path : String) (values : List Value)
  | updateArray (id : DocId) (path : String) (matcher : Matcher) (updates : List Value)

namespace Call

/-- The call removes documents. -/
def Removes : Call → Prop
  | deleteById _ => True
  | deleteMany _ => True
  | _ => False

/-- How a call edits the items of a list: of which document, behind which path, and how. -/
def edit? : Call → Option (DocId × String × (Element → List Value → Build (List Value)))
  | insertInto id path values =>
    some (id, path, fun element current => Listing.insert path element current values)
  | removeFrom id path values =>
    some (id, path, fun element current => pure (Listing.remove element current values))
  | updateArray id path matcher updates =>
    some (id, path, fun element current =>
      Build.lift (Listing.update path element matcher current updates))
  | _ => none

end Call

namespace Collection

variable {σ : Type} (collection : Collection σ)

/-- What a call does; what it returns is left out. -/
def perform (now : Instant) : Call → Operation σ Unit
  | .insert raw => discard (collection.insert now raw)
  | .insertMany raws => discard (collection.insertMany now raws)
  | .updateById id patch => discard (collection.updateById now id patch)
  | .updateMany query patch => discard (collection.updateMany now query patch)
  | .deleteById id => collection.deleteById id
  | .deleteMany query => discard (collection.deleteMany query)
  | .insertInto id path values => discard (collection.insertInto now id path values)
  | .removeFrom id path values => discard (collection.removeFrom now id path values)
  | .updateArray id path matcher updates =>
    discard (collection.updateArray now id path matcher updates)

/-- **The raw values that a call builds documents from.** For an edit of a list it is the patch that
writes the new items. -/
inductive Builds (now : Instant) (store : σ) : Call → Value → Prop
  | insert {raw : Value} : Builds now store (.insert raw) raw
  | insertMany {raws : List Value} {raw : Value} (hin : raw ∈ raws) :
    Builds now store (.insertMany raws) raw
  | updateById {id : DocId} {patch : Value} : Builds now store (.updateById id patch) patch
  | updateMany {query : Query} {patch : Value} : Builds now store (.updateMany query patch) patch
  | edit {call : Call} {id : DocId} {path : String}
    {edit : Element → List Value → Build (List Value)} {element : Element} {existing : Document}
    {current items : List Value} {work : Work} (hedit : call.edit? = some (id, path, edit))
    (helement : collection.tree.element path = .ok element)
    (hexisting : collection.findById id store = .ok existing)
    (hcurrent : Listing.items existing path = .ok current)
    (hitems : (edit element current (collection.database.context now store) work).1 = .ok items) :
    Builds now store call (Listing.patch path items)

/-- The ids that the input of a call names. -/
def CallNames (now : Instant) (store : σ) (call : Call) (other : String) (id : DocId) : Prop :=
  ∃ raw, collection.Builds now store call raw ∧
    Names collection.database.registry (.document collection.name false) raw other id

end Collection

/-! ### Looking -/

section Looking
variable {σ : Type} {database : Database σ} {view : σ → MemoryStore} {faults loose : Prop}
  {collection : Collection σ} {store : σ}

theorem Tree.element_noReuse {tree : Tree} {path : String} : NoReuse (tree.element path) := by
  unfold Tree.element
  split
  · split
    · exact noReuse_ok
    · exact noReuse_error (by rintro ⟨⟩)
  · exact noReuse_error (by rintro ⟨⟩)
  · exact noReuse_error (by rintro ⟨⟩)

theorem Query.check_noReuse {query : Query} : NoReuse query.check := by
  unfold Query.check
  split
  · exact noReuse_error (by rintro ⟨⟩)
  · exact noReuse_ok

variable (hbackend : database.backend.ActsLike view faults)
  (hcollection : collection.database = database)
include hbackend hcollection

theorem findById_noReuse {id : DocId} : NoReuse (collection.findById id store) := by
  subst hcollection
  unfold Collection.findById
  rw [hbackend.fetch]
  refine NoReuse.bind noReuse_ok fun found => ?_
  split
  · exact noReuse_pure
  · exact noReuse_error (by rintro ⟨⟩)

/-- The document of an id is a stored one. -/
theorem findById_ok {id : DocId} {document : Document}
    (h : collection.findById id store = .ok document) :
    findDocument ((view store).documents collection.name) id = some document := by
  subst hcollection
  unfold Collection.findById at h
  rw [hbackend.fetch] at h
  obtain ⟨found, hfound, h⟩ := bind_ok_iff.mp h
  cases hfound
  split at h
  · next heq =>
    cases h
    exact heq
  · cases h

theorem findById_of_found {id : DocId} {document : Document}
    (h : findDocument ((view store).documents collection.name) id = some document) :
    collection.findById id store = .ok document := by
  subst hcollection
  unfold Collection.findById
  rw [hbackend.fetch, h]
  rfl

theorem selected_noReuse {query : Query} : NoReuse (collection.selected query store) := by
  subst hcollection
  unfold Collection.selected Collection.documents
  rw [hbackend.all]
  exact Query.check_noReuse.bind fun _ => noReuse_ok.bind fun _ => noReuse_pure

/-- What a query selects is stored. -/
theorem selected_ok {query : Query} {documents : List Document}
    (h : collection.selected query store = .ok documents) :
    ∀ document ∈ documents, document ∈ (view store).documents collection.name := by
  subst hcollection
  unfold Collection.selected Collection.documents at h
  rw [hbackend.all] at h
  obtain ⟨_, _, h⟩ := bind_ok_iff.mp h
  obtain ⟨all, hall, h⟩ := bind_ok_iff.mp h
  cases hall
  cases h
  exact fun document hin => (List.mem_filter.mp hin).1

end Looking

/-! ### Calls settle -/

section Settling
variable {σ α β : Type} {database : Database σ} {view : σ → MemoryStore} {faults loose : Prop}
  {named : String → DocId → Prop} {running : Running σ}

/-- **What a whole operation ensures** of a sound store. -/
def Settles (database : Database σ) (view : σ → MemoryStore) (loose : Prop)
    (named : String → DocId → Prop) (running : Running σ) (step : Operation σ α) : Prop :=
  (view running.store).Sound database.registry ((view running.store).Knows loose) →
    Ensures step running
      (fun _ after => Settled database view loose named running.store after.store)
      (fun e after => Settled database view loose named running.store after.store ∧ ¬ e.Reuse)

theorem settles_discard {step : Operation σ α}
    (h : Settles database view loose named running step) :
    Settles database view loose named running (discard step) := fun hsound =>
  ensures_map.mpr (h hsound)

theorem Carries.settles {step : Operation σ α} {done : α → Running σ → Prop}
    (h : Carries database view loose named running step done)
    (hready : running.Ready database view loose) :
    Ensures step running
      (fun _ after => Settled database view loose named running.store after.store)
      (fun e after => Settled database view loose named running.store after.store ∧ ¬ e.Reuse) := by
  refine (h hready).mono ?_ fun _ _ h => h
  rintro a after ⟨hafter, hadvances, _⟩
  exact ⟨hafter.sound, hadvances⟩

/-- An operation that forgets what was looked at, and goes on from there. -/
theorem settles_start {step : Operation σ α}
    (h : ∀ fresh : Running σ, fresh.store = running.store → fresh.work.pending = [] →
      Carries database view loose named fresh step fun _ _ => True) :
    Settles database view loose named running (Operation.start >>= fun _ => step) := by
  intro hsound
  refine ensures_bind.mpr (ensures_modify.mpr ?_)
  exact (h { running with work := running.work.fresh } rfl rfl).settles (fresh_ready hsound)

/-- An operation that looks at the store first. -/
theorem settles_look {read : σ → Except Error α} {next : α → Operation σ β}
    (hreuse : NoReuse (read running.store))
    (hnext : ∀ a, read running.store = .ok a →
      Settles database view loose named running (next a)) :
    Settles database view loose named running (Operation.look read >>= next) := by
  intro hsound
  refine ensures_bind.mpr ?_
  unfold Ensures Operation.look
  cases hread : read running.store with
  | error e => exact ⟨⟨hsound, .refl _⟩, hreuse e hread⟩
  | ok a => exact hnext a hread hsound

/-- A step that only looks, of an operation in which nothing waits. -/
theorem build_carries {now : Instant} {step : Build α} (hpending : running.work.pending = [])
    (hground : running.Ready database view loose →
      (database.ground view now loose named running.store).Sound)
    (hlooks : (database.ground view now loose named running.store).Sound →
      OnlyLooks (database.ground view now loose named running.store) step) :
    Carries database view loose named running (database.build now step) fun a after =>
      after.store = running.store ∧
        ∃ work, (step (database.context now running.store) work).1 = .ok a := by
  intro hready
  refine ensures_build.mpr (((hlooks (hground hready) _ (Ready.work_sound hready hpending)).and
    ensures_self).mono ?_ ?_)
  · rintro a work ⟨⟨hwork, hsame⟩, heq⟩
    refine ⟨⟨hready.sound, hwork.follows, ?_⟩, .refl _, .refl _, rfl, running.work, ?_⟩
    · intro collection id htaken
      rcases hwork.covered collection id htaken with hhas | ⟨write, hin, _⟩ | hopen
      · exact hhas
      · rw [hsame, hpending] at hin
        cases hin
      · cases hopen
    · exact congrArg Prod.fst heq
  · rintro e work ⟨⟨_, hreuse⟩, _⟩
    exact ⟨⟨hready.sound, .refl _⟩, hreuse⟩

variable (hbackend : database.backend.ActsLike view faults)
include hbackend

/-- Removing documents. -/
theorem remove_settled (hloose : loose) {name : String} {ids : List DocId}
    (hsound : (view running.store).Sound database.registry ((view running.store).Knows loose)) :
    Ensures (Operation.write (database.backend.remove name ids)) running
      (fun _ after => Settled database view loose named running.store after.store)
      (fun _ _ => False) := by
  refine ensures_write.mpr ((hbackend.remove running.store name ids).mono ?_
    fun _ _ h => h)
  intro _ store hview
  have hremoved : (view store).Sound database.registry ((view store).Knows loose) := by
    rw [hview]
    exact (hsound.mono fun _ _ _ => Or.inl hloose).remove
  refine ⟨hremoved, fun other => ?_, fun other n hhas => Or.inl ?_⟩
  · exact Nat.le_of_eq (by rw [hview, MemoryStore.count_remove])
  · rw [hview] at hhas
    exact MemoryStore.has_of_has_remove hhas

variable {collection : Collection σ} (hcollection : collection.database = database)
include hcollection

theorem deleteById_settles (hloose : loose) {id : DocId} :
    Settles database view loose named running (collection.deleteById id) := by
  intro hsound
  subst hcollection
  have hremoved : Ensures
      (Operation.write (collection.database.backend.remove collection.name [id])) running
      (fun _ after =>
        Settled collection.database view loose named running.store after.store)
      (fun _ _ => False) := remove_settled hbackend hloose hsound
  refine ensures_bind.mpr (hremoved.mono ?_ fun _ _ h => h.elim)
  intro removed after hsettled
  cases removed with
  | zero => exact ⟨hsettled, by rintro ⟨⟩⟩
  | succ n => exact hsettled

theorem deleteMany_settles (hloose : loose) {query : Query} :
    Settles database view loose named running (collection.deleteMany query) := by
  refine settles_look (selected_noReuse hbackend hcollection) fun found hfound => ?_
  intro hsound
  dsimp only
  split_ifs
  · exact ⟨hsound, .refl _⟩
  · subst hcollection
    exact (remove_settled hbackend hloose hsound).mono (fun _ _ h => h) fun _ _ h => h.elim

variable (hregistry : database.registry.Proper) (hsource : database.source.Exact)
  (hloose : faults → loose)
include hregistry hsource hloose

theorem insert_settles {now : Instant} {raw : Value}
    (hraw : NamesOnly database.registry named collection.name raw) :
    Settles database view loose named running (collection.insert now raw) :=
  settles_start fun _ _ _ =>
    insertOne_carries hbackend hregistry hsource hloose hcollection hraw

theorem insertMany_settles {now : Instant} {raws : List Value}
    (hraws : ∀ raw ∈ raws, NamesOnly database.registry named collection.name raw) :
    Settles database view loose named running (collection.insertMany now raws) :=
  settles_start fun _ _ _ =>
    insertAll_carries hbackend hregistry hsource hloose hcollection hraws

theorem updateById_settles {now : Instant} {id : DocId} {patch : Value}
    (hpatch : NamesOnly database.registry named collection.name patch) :
    Settles database view loose named running (collection.updateById now id patch) := by
  intro hsound
  refine settles_look (findById_noReuse hbackend hcollection) (fun existing hexisting => ?_) hsound
  have hin := (findDocument_eq_some (findById_ok hbackend hcollection hexisting)).1
  refine settles_start fun fresh hfresh _ => ?_
  exact changeOne_carries hbackend hregistry hsource hloose hcollection
    (hfresh ▸ hsound.changeable hin) hpatch

theorem updateMany_settles {now : Instant} {query : Query} {patch : Value}
    (hpatch : NamesOnly database.registry named collection.name patch) :
    Settles database view loose named running (collection.updateMany now query patch) := by
  intro hsound
  refine settles_look (selected_noReuse hbackend hcollection) (fun existing hexisting => ?_) hsound
  refine settles_start fun fresh hfresh _ => ?_
  refine changeAll_carries hbackend hregistry hsource hloose hcollection (fun document hin => ?_)
    hpatch
  exact hfresh ▸ hsound.changeable (selected_ok hbackend hcollection hexisting document hin)

/-- **Editing a list.** -/
theorem changeList_settles {now : Instant} {call : Call} {id : DocId} {path : String}
    {edit : Element → List Value → Build (List Value)} (hedit : call.edit? = some (id, path, edit))
    (hlooks : ∀ ground : Ground, ground.Sound → ∀ element current,
      OnlyLooks ground (edit element current))
    (hnamed : ∀ other own, collection.CallNames now running.store call other own →
      named other own) :
    Settles database view loose named running (collection.changeList now id path edit) := by
  intro hsound
  refine settles_look Tree.element_noReuse (fun element helement => ?_) hsound
  refine settles_look (findById_noReuse hbackend hcollection) fun existing hexisting => ?_
  refine settles_look (Listing.itemsBehind_noReuse _ _) fun current hcurrent => ?_
  have hin := (findDocument_eq_some (findById_ok hbackend hcollection hexisting)).1
  refine settles_start fun fresh hfresh hpending => ?_
  subst hcollection
  refine Carries.bind (build_carries hpending
    (fun hready => ground_sound hbackend hregistry hsource hready.sound)
    fun hground => hlooks _ hground element current) ?_
  rintro items after hretains ⟨hstore, work, hitems⟩
  rw [hfresh] at hstore hitems
  refine changeOne_carries hbackend hregistry hsource hloose rfl
    (hstore ▸ hsound.changeable hin) fun other own hnames => ?_
  exact hnamed other own
    ⟨_, .edit hedit helement hexisting hcurrent hitems, hnames⟩

/-- **Every call** leaves a sound store behind, and none fails because a generated number is in
use. -/
theorem perform_settles (now : Instant) (call : Call) (hremoves : call.Removes → loose) :
    Settles database view loose (collection.CallNames now running.store call) running
      (collection.perform now call) := by
  have hnames : ∀ raw, collection.Builds now running.store call raw →
      NamesOnly database.registry (collection.CallNames now running.store call) collection.name
        raw := by
    intro raw hbuilds other id hnames
    exact ⟨raw, hbuilds, hcollection.symm ▸ hnames⟩
  cases call with
  | insert raw =>
    exact settles_discard (insert_settles hbackend hcollection hregistry hsource hloose
      (hnames raw .insert))
  | insertMany raws =>
    exact settles_discard (insertMany_settles hbackend hcollection hregistry hsource hloose
      fun raw hin => hnames raw (.insertMany hin))
  | updateById id patch =>
    exact settles_discard (updateById_settles hbackend hcollection hregistry hsource hloose
      (hnames patch .updateById))
  | updateMany query patch =>
    exact settles_discard (updateMany_settles hbackend hcollection hregistry hsource hloose
      (hnames patch .updateMany))
  | deleteById id => exact deleteById_settles hbackend hcollection (hremoves trivial)
  | deleteMany query =>
    exact settles_discard (deleteMany_settles hbackend hcollection (hremoves trivial))
  | insertInto id path values =>
    exact settles_discard (changeList_settles hbackend hcollection hregistry hsource hloose rfl
      (fun ground hground element current => insert_onlyLooks hground path element current values)
      fun _ _ h => h)
  | removeFrom id path values =>
    exact settles_discard (changeList_settles hbackend hcollection hregistry hsource hloose rfl
      (fun ground hground element current => onlyLooks_lift noReuse_pure) fun _ _ h => h)
  | updateArray id path matcher updates =>
    exact settles_discard (changeList_settles hbackend hcollection hregistry hsource hloose rfl
      (fun ground hground element current => onlyLooks_lift Listing.update_noReuse)
      fun _ _ h => h)

end Settling

end DocumentDb
