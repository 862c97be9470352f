import DocumentDb.Proofs.Database.Updates
import DocumentDb.Proofs.Document.Items
import Mathlib

/-!
# Edits of lists of documents

A call that edits a list of documents writes all items of the new list. The items that it keeps are
copies of documents, and each goes through the builder again like an object of the input: a copy
that is in sync with the store changes nothing, and any other one overwrites its document or brings
it back. So a call leaves all documents alone that it does not address if the copies that it keeps
are in sync.
-/

namespace DocumentDb

/-! ### What a call addresses -/

namespace Call

/-- The updates of a call. -/
def updates : Call → List Value
  | updateArray _ _ _ updates => updates
  | _ => []

/-- The matcher of a call is a function of the program. -/
def Custom : Call → Prop
  | updateArray _ _ (.custom _) _ => True
  | _ => False

/-- The items that the expression of a call selects. -/
def selected (current : List Value) : Call → List Value
  | updateArray _ _ (.expression e) _ => e.selected current
  | _ => []

/-- The call edits items with an id: an update has it, or an item that is selected. -/
def Edits (current : List Value) (id : DocId) : Call → Prop
  | updateArray _ _ (.key _) updates => ∃ update ∈ updates, DocId.ofIdOrObject? update = some id
  | call => ∃ item ∈ call.selected current, DocId.ofIdOrObject? item = some id

/-- The items of a list that a call keeps, with or without changes: those that it neither replaces
nor removes. -/
def kept (current : List Value) : Call → List Value
  | insertInto _ _ values => current.filter fun item =>
      DocId.ofIdOrObject? item = none ∨
        DocId.ofIdOrObject? item ∉ values.map DocId.ofIdOrObject?
  | removeFrom _ _ values => current.filter fun item =>
      !Listing.idIsNamed (DocId.ofIdOrObject? item) values
  | _ => current

/-- The call supplies an object as a document of a collection: it is one of the values for the list,
or is inside of one or of an update. -/
def Supplies (registry : Registry) (target other : String) (object : Object) : Call → Prop
  | insertInto _ _ values => ∃ value ∈ values,
      Mentions registry (fun _ _ => False) (.document target false) value other object
  | updateArray _ _ _ updates => ∃ update ∈ updates, ∃ tree, registry.tree? target = some tree ∧
      Mentions registry (fun _ _ => False) (.nested tree.fields) update other object
  | _ => False

/-- **The bounds of a call** that edits a list of documents of a collection: the documents that it
names or edits, and new ones for the objects without an id. An item that is no object has no
document, so an update of it makes a new one. -/
def bounds (call : Call) (registry : Registry) (target : String) (current : List Value) :
    Bounds where
  named other id :=
    (∃ object, call.Supplies registry target other object ∧
      Object.value? object idKey = some id.toValue) ∨
    (other = target ∧ call.Edits current id)
  created other :=
    (∃ object, call.Supplies registry target other object ∧ object.Nameless) ∨
    (other = target ∧ ∃ item ∈ call.selected current, item.object? = none)

/-- **The copies that a call keeps are in sync** with the store, or are of documents that it
addresses. -/
def KeepsInSync (call : Call) (registry : Registry) (target : String) (store : MemoryStore)
    (current : List Value) : Prop :=
  ∀ item ∈ call.kept current,
    Mentioned registry (call.bounds registry target current).Spares
      (fun other object =>
        (∃ id, Object.value? object idKey = some id.toValue ∧
          (call.bounds registry target current).named other id) ∨ store.InSync other object)
      (.document target false) item

end Call

/-! ### The items that a call writes -/

theorem Bounds.tolerates_named {bounds : Bounds} {store : MemoryStore} {collection : String}
    {object : Object} {id : DocId} (hid : Object.value? object idKey = some id.toValue)
    (hnamed : bounds.named collection id) : bounds.Tolerates store collection object where
  named other hother := by
    rw [hid] at hother
    exact Or.inl (DocId.toValue_injective (Option.some.inj hother) ▸ hnamed)
  nameless hnameless := absurd hid (hnameless.not_named id)

theorem MemoryStore.InSync.tolerated {bounds : Bounds} {store : MemoryStore} {collection : String}
    {object : Object} (h : store.InSync collection object) :
    bounds.Tolerates store collection object where
  named _ _ := Or.inr h
  nameless hnameless := by
    obtain ⟨id, _, hid, _⟩ := h
    exact absurd hid (hnameless.not_named id)

namespace Call

section Writing
variable {registry : Registry} {store : MemoryStore} {target path : String} {current : List Value}
  {call : Call}

/-- What a call supplies may be embedded within its bounds. -/
theorem Supplies.tolerated {other : String} {object : Object}
    (h : call.Supplies registry target other object) :
    (call.bounds registry target current).Tolerates store other object where
  named _ hid := Or.inl (Or.inl ⟨object, h, hid⟩)
  nameless hnameless := Or.inl ⟨object, h, hnameless⟩

/-- The items for a list may be embedded within the bounds of a call. -/
abbrev Tolerates (call : Call) (registry : Registry) (store : MemoryStore) (target : String)
    (current : List Value) (node : Node) (value : Value) : Prop :=
  Mentioned registry (call.bounds registry target current).Spares
    ((call.bounds registry target current).Tolerates store) node value

theorem kept_tolerated (hsynced : call.KeepsInSync registry target store current) {item : Value}
    (hin : item ∈ call.kept current) :
    call.Tolerates registry store target current (.document target false) item :=
  (hsynced item hin).mono fun _ _ h => by
    rcases h with ⟨id, hid, hnamed⟩ | hsync
    · exact Bounds.tolerates_named hid hnamed
    · exact hsync.tolerated

theorem insertInto_tolerated {id : DocId} {values items : List Value}
    (hsynced : (insertInto id path values).KeepsInSync registry target store current)
    {context : Context} {work : Work}
    (hitems : (Listing.insert path (.document target) current values context work).1 = .ok items) :
    ∀ item ∈ items, (insertInto id path values).Tolerates registry store target current
      (.document target false) item := by
  obtain rfl := Listing.insert_ok hitems
  intro item hin
  rcases mem_collapse_append hin with hvalue | ⟨hcurrent, hkey⟩
  · intro other object hmentions
    have hsupplies : (insertInto id path values).Supplies registry target other object :=
      ⟨item, hvalue, hmentions.unskipped⟩
    exact hsupplies.tolerated
  · refine kept_tolerated hsynced (List.mem_filter.mpr ⟨hcurrent, ?_⟩)
    by_cases hnone : DocId.ofIdOrObject? item = none
    · simp [hnone]
    · simp only [hnone, false_or, decide_eq_true_eq]
      exact hkey hnone

/-- The fields of an update mention what the call supplies. -/
theorem update_tolerated {id : DocId} {matcher : Matcher} {updates : List Value} {update : Object}
    (hin : Value.object update ∈ updates) {tree : Tree}
    (htree : registry.tree? target = some tree) :
    (updateArray id path matcher updates).Tolerates registry store target current
      (.nested tree.fields) (.object update) := by
  intro other object hmentions
  have hsupplies : (updateArray id path matcher updates).Supplies registry target other object :=
    ⟨_, hin, tree, htree, hmentions.unskipped⟩
  exact hsupplies.tolerated

/-- Items over which updates with their ids are laid. -/
theorem overlayDocuments_tolerated {id : DocId} {key : String} {updates : List Value}
    (hkeys : ∀ update ∈ updates, update.KeysOnce) {pairs : List (DocId × Object)}
    (hpairs : ∀ pair ∈ pairs, Value.object pair.2 ∈ updates ∧ Object.id? pair.2 = some pair.1)
    {items new : List Value}
    (hitems : ∀ item ∈ items, (updateArray id path (.key key) updates).Tolerates registry store
      target current (.document target false) item)
    (hnew : Listing.overlayDocuments target pairs items = .ok new) :
    ∀ item ∈ new, (updateArray id path (.key key) updates).Tolerates registry store target current
      (.document target false) item := by
  induction pairs generalizing items with
  | nil => cases hnew; exact hitems
  | cons pair rest ih =>
    obtain ⟨own, update⟩ := pair
    obtain ⟨⟨hin, hown⟩, hrest⟩ := List.forall_mem_cons.mp hpairs
    rw [Listing.overlayDocuments] at hnew
    split_ifs at hnew
    refine ih hrest (fun item hitem => ?_) hnew
    rcases mem_editFirst hitem with hold | ⟨old, hfound, rfl⟩
    · exact hitems item hold
    have hvalue := Object.value?_id hown
    have hnamed : ((updateArray id path (.key key) updates).bounds registry target current).named
        target own := Or.inr ⟨rfl, _, hin, hown⟩
    cases old with
    | object copy =>
      have hcopy : Object.id? copy = some own := by
        have htest := List.find?_some hfound
        exact beq_iff_eq.mp htest
      refine (hitems _ (List.mem_of_find?_eq_some hfound)).overlay
        (Bounds.not_spares (Object.value?_id hcopy) hnamed) (fun _ => update_tolerated hin)
        (Bounds.tolerates_named ?_ hnamed)
      rw [Object.value?_overlaid (hkeys _ hin).keys, hvalue, Option.some_or]
    | _ => exact .of_document (Bounds.tolerates_named hvalue hnamed) fun _ => update_tolerated hin

/-- A copy that is selected is of a document that the call addresses. -/
theorem selected_named (hsynced : call.KeepsInSync registry target store current) {copy : Object}
    (hin : Value.object copy ∈ call.kept current)
    (hedits : ∀ id, Object.id? copy = some id → call.Edits current id) :
    ∃ id, Object.value? copy idKey = some id.toValue ∧
      (call.bounds registry target current).named target id := by
  rcases hsynced _ hin target copy (.own rfl) with haddressed | ⟨id, stored, hid, hfound, _⟩
  · exact haddressed
  · have hvalid := (Object.id?_eq_some_iff.mp (findDocument_eq_some hfound).2).2
    exact ⟨id, hid, Or.inr ⟨rfl, hedits id (Object.id?_eq_some_iff.mpr ⟨hid, hvalid⟩)⟩⟩

/-- Items over which an update without an id is laid if they are selected. -/
theorem edit_tolerated {id : DocId} {e : Expression} {updates : List Value} {update : Object}
    (hin : Value.object update ∈ updates) (hkeys : (Object.keys update).Nodup)
    (hid : Object.value? update idKey = none)
    (hsynced : (updateArray id path (.expression e) updates).KeepsInSync registry target store
      current) :
    ∀ item ∈ e.edit (overlay update) current,
      (updateArray id path (.expression e) updates).Tolerates registry store target current
        (.document target false) item := by
  intro item hitem
  rcases Expression.mem_edit hitem with hold | ⟨old, hselected, rfl⟩
  · exact kept_tolerated hsynced hold
  have hbare : old.object? = none →
      ((updateArray id path (.expression e) updates).bounds registry target current).Tolerates store
        target update := fun hobject =>
    { named := fun own hown => by rw [hid] at hown; cases hown
      nameless := fun _ => Or.inr ⟨rfl, old, hselected, hobject⟩ }
  cases old with
  | object copy =>
    have hkept := Expression.mem_of_selected hselected
    obtain ⟨own, hown, hnamed⟩ := selected_named hsynced hkept fun own hown =>
      (show Edits current own (updateArray id path (.expression e) updates) from
        ⟨_, hselected, hown⟩)
    refine (kept_tolerated hsynced hkept).overlay (Bounds.not_spares hown hnamed)
      (fun _ => update_tolerated hin)
      (Bounds.tolerates_named ?_ hnamed)
    rw [Object.value?_overlaid hkeys, hid, Option.none_or, hown]
  | _ => exact .of_document (hbare rfl) fun _ => update_tolerated hin

theorem updateArray_tolerated {id : DocId} {matcher : Matcher} {updates items : List Value}
    (hcustom : ¬ (updateArray id path matcher updates).Custom)
    (hkeys : ∀ update ∈ updates, update.KeysOnce)
    (hsynced : (updateArray id path matcher updates).KeepsInSync registry target store current)
    (hitems : Listing.update path (.document target) matcher current updates = .ok items) :
    ∀ item ∈ items, (updateArray id path matcher updates).Tolerates registry store target current
      (.document target false) item := by
  cases matcher with
  | custom edit => exact absurd trivial hcustom
  | key key =>
    rw [Listing.update] at hitems
    obtain ⟨pairs, hpairs, hitems⟩ := Listing.updateByKey_ok hitems
    exact overlayDocuments_tolerated hkeys hpairs (fun item hin => kept_tolerated hsynced hin)
      hitems
  | expression e =>
    rw [Listing.update] at hitems
    split at hitems
    · obtain ⟨update, hin, hid, rfl⟩ := Listing.updateByExpression_ok hitems
      exact edit_tolerated hin (hkeys _ hin).keys hid hsynced
    · cases hitems

/-- **All items that a call writes** may be embedded within its bounds if the copies that it keeps
are in sync. -/
theorem edit?_tolerated {id : DocId} {edit : Element → List Value → Build (List Value)}
    (hedit : call.edit? = some (id, path, edit)) (hcustom : ¬ call.Custom)
    (hkeys : ∀ update ∈ call.updates, update.KeysOnce)
    (hsynced : call.KeepsInSync registry target store current) {context : Context} {work : Work}
    {items : List Value}
    (hitems : (edit (.document target) current context work).1 = .ok items) :
    ∀ item ∈ items, call.Tolerates registry store target current (.document target false) item := by
  cases call with
  | insertInto own path values => cases hedit; exact insertInto_tolerated hsynced hitems
  | removeFrom own path values =>
    cases hedit
    cases hitems
    exact fun item hin => kept_tolerated hsynced hin
  | updateArray own path matcher updates =>
    cases hedit
    exact updateArray_tolerated hcustom hkeys hsynced hitems
  | _ => cases hedit

end Writing

end Call

/-! ### What edits leave alone -/

section Leaving
variable {σ : Type} {database : Database σ} {view : σ → MemoryStore} {faults : Prop}
  {running : Running σ} {collection : Collection σ} {now : Instant} {id : DocId} {path : String}
  {edit : Element → List Value → Build (List Value)} {target : String} {existing : Document}
  {current : List Value}

theorem ensures_discard {α : Type} {step : Operation σ α} {done : Running σ → Prop}
    {failed : Error → Running σ → Prop}
    (h : Ensures step running (fun _ after => done after) failed) :
    Ensures (discard step) running (fun _ after => done after) failed := ensures_map.mpr h

theorem perform_edit {call : Call} (hedit : call.edit? = some (id, path, edit)) :
    collection.perform now call = discard (collection.changeList now id path edit) := by
  cases call <;> cases hedit <;> rfl

theorem Call.edit?_onlyLooks {call : Call} (hedit : call.edit? = some (id, path, edit))
    {ground : Ground} (hground : ground.Sound) {element : Element} :
    OnlyLooks ground (edit element current) := by
  cases call with
  | insertInto => cases hedit; exact insert_onlyLooks hground _ element current _
  | removeFrom => cases hedit; exact onlyLooks_lift noReuse_pure
  | updateArray => cases hedit; exact onlyLooks_lift Listing.update_noReuse
  | _ => cases hedit

variable (hbackend : database.backend.ActsLike view faults) (hregistry : database.registry.Proper)
  (hsource : database.source.Exact) (hcollection : collection.database = database)
include hbackend hregistry hsource hcollection

/-- **An edit of a list leaves all documents beyond bounds alone** except for the one around the
list, if the items that it writes may be embedded within the bounds. -/
theorem changeList_leaves
    (hsound : (view running.store).Sound database.registry ((view running.store).Knows True))
    (htree : database.registry.tree? collection.name = some collection.tree)
    (helement : collection.tree.element path = .ok (.document target))
    (hexisting : collection.findById id running.store = .ok existing)
    (hcurrent : Listing.items existing path = .ok current)
    (hlooks : ∀ ground : Ground, ground.Sound → OnlyLooks ground (edit (.document target) current))
    {bounds : Bounds}
    (hitems : ∀ work items, (edit (.document target) current
        (database.context now running.store) work).1 = .ok items →
      ∀ item ∈ items, Mentioned database.registry bounds.Spares
        (bounds.Tolerates (view running.store)) (.document target false) item) :
    Ensures (collection.changeList now id path edit) running
      (fun _ after => ∀ other own, ¬ bounds.Allows (view running.store) other own →
        (other ≠ collection.name ∨ own ≠ id) →
        findDocument ((view after.store).documents other) own =
          findDocument ((view running.store).documents other) own)
      (fun _ _ => True) := by
  refine ensures_look helement (ensures_look hexisting (ensures_look hcurrent ?_))
  refine ensures_bind.mpr (ensures_modify.mpr ?_)
  obtain ⟨hin, hid⟩ := findDocument_eq_some (findById_ok hbackend hcollection hexisting)
  subst hcollection
  have hready : ({ running with work := running.work.fresh } : Running σ).Ready
      collection.database view True := fresh_ready hsound
  have hbuild : Carries collection.database view True (fun _ _ => True)
      { running with work := running.work.fresh }
      (collection.database.build now (edit (.document target) current)) _ :=
    build_carries rfl (fun hready => ground_sound hbackend hregistry hsource hready.sound)
      (hlooks _)
  refine Ensures.bind ((hbuild hready).mono (fun _ _ h => h) fun _ _ _ => trivial) ?_
  rintro items after ⟨hafter, _, _, hstore, work, hbuilt⟩
  have hpatch : ∀ tree, collection.database.registry.tree? collection.name = some tree →
      Mentioned collection.database.registry bounds.Spares (bounds.Tolerates (view after.store))
        (.nested tree.fields) (Listing.patch path items) := by
    intro tree hother
    rw [htree] at hother
    cases hother
    rw [hstore]
    exact .patch (hregistry.tree? htree) helement (hitems work items hbuilt)
  have hleaves : Ensures (collection.changeOne now existing (Listing.patch path items)) after _ _ :=
    changeOne_leaves hbackend hregistry hsource rfl hafter hid (hstore ▸ hsound.changeable hin)
      hpatch
  rw [hstore] at hleaves
  exact hleaves

end Leaving

/-- **An edit of a list of documents** leaves every document alone that the call neither names nor
edits, and adds new ones only for objects without an id, if the copies that it keeps are in sync.
The document around the list is changed as well. -/
theorem edit_leaves {σ : Type} {database : Database σ} {view : σ → MemoryStore} {faults : Prop}
    (hbackend : database.backend.ActsLike view faults) (hregistry : database.registry.Compiled)
    (hsource : database.source.Exact) {start running : Running σ}
    (hempty : ∀ name, (view start.store).documents name = [])
    (hreaches : database.Reaches (fun _ => True) start running) {name : String}
    {collection : Collection σ} (hcollection : database.collection name = .ok collection)
    {call : Call} {id : DocId} {path : String}
    {edit : Element → List Value → Build (List Value)} (hedit : call.edit? = some (id, path, edit))
    (hcustom : ¬ call.Custom) (hkeys : ∀ update ∈ call.updates, update.KeysOnce)
    {target : String} (helement : collection.tree.element path = .ok (.document target))
    {existing : Document} (hexisting : collection.findById id running.store = .ok existing)
    {current : List Value} (hcurrent : Listing.items existing path = .ok current)
    (hsynced : call.KeepsInSync database.registry target (view running.store) current)
    {now : Instant} {after : Running σ}
    (hdone : collection.perform now call running = (.ok (), after)) (other : String)
    (own : DocId)
    (hbeyond : ¬ (call.bounds database.registry target current).Allows (view running.store) other
      own)
    (helse : other ≠ name ∨ own ≠ id) :
    database.backend.fetch after.store other own =
      database.backend.fetch running.store other own := by
  obtain ⟨hdatabase, hname, htree⟩ := collection_ok hcollection
  have hsound := Reaches.sound_of_empty hbackend hregistry hsource hreaches hempty
  rw [hbackend.fetch, hbackend.fetch]
  have hlooks : ∀ ground : Ground, ground.Sound →
      OnlyLooks ground (edit (.document target) current) := fun _ hground =>
    Call.edit?_onlyLooks hedit hground
  have hleaves : Ensures (collection.changeList now id path edit) running _ _ :=
    changeList_leaves hbackend hregistry.proper hsource hdatabase hsound (hname ▸ htree) helement
      hexisting hcurrent hlooks fun _ _ => Call.edit?_tolerated hedit hcustom hkeys hsynced
  rw [perform_edit hedit] at hdone
  exact congrArg _ ((ensures_discard hleaves).of_ok hdone other own hbeyond (hname ▸ helse))

/-! ### Teams and their members -/

/-- A schema by which teams embed people. -/
def teamDefinitions : List Definition :=
  [⟨"people", {}, [("name", .string "String"), ("level", .string "Number")]⟩,
    ⟨"teams", {}, [("members", .array [.object [("schema", .string "people")]])]⟩]

/-- The compiled schema of the people in teams. -/
def memberTree : Tree where
  collection := "people"
  id := .standard
  fields := [("name", .scalar .string {}), ("level", .scalar .number {})]
  settings := {}

/-- The compiled schema of teams. -/
def teamTree : Tree where
  collection := "teams"
  id := .standard
  fields := [("members", .list (.document "people"))]
  settings := {}

theorem teams_compiled :
    Registry.Compiled { shardMax := 1000, trees := [memberTree, teamTree] } := by
  refine ⟨1000, teamDefinitions, rfl, fun definition hin => ?_⟩
  simp only [teamDefinitions, List.mem_cons, List.not_mem_nil, or_false] at hin
  rcases hin with rfl | rfl
  · simp [Value.keysOnce_object_iff, Value.KeysOnce.string, Object.keys]
  · simp [Value.keysOnce_object_iff, Value.keysOnce_array_iff, Value.KeysOnce.string, Object.keys]

/-- A database of teams. -/
def teamDatabase : Database MemoryStore where
  registry := { shardMax := 1000, trees := [memberTree, teamTree] }
  backend := MemoryStore.backend
  source := IdSource.ofBytes .empty

/-- The teams of the database. -/
def teams : Collection MemoryStore := ⟨teamDatabase, teamTree⟩

/-- The people in teams. -/
def members : Collection MemoryStore := ⟨teamDatabase, memberTree⟩

/-- A member of a team as it is stored. -/
def member (n : Nat) (name : String) : Document := [("id", .ofNat n), ("name", .string name)]

/-- The state after a person was inserted. -/
def onePerson : Running MemoryStore :=
  (members.perform ⟨0, 0⟩ (.insert (.object [("name", .string "a")])) nobody).2

/-- The state after a team of the person was inserted. -/
def oneTeam : Running MemoryStore :=
  (teams.perform ⟨0, 0⟩ (.insert (.object [("members",
    .array [.object [("id", .number (.int 1))]])])) onePerson).2

/-- The state after the member has got another name, which its copy in the team lacks. -/
def renamed : Running MemoryStore :=
  (members.perform ⟨0, 0⟩ (.updateById (.number 1) (.object [("name", .string "z")])) oneTeam).2

/-- Another member comes to the team. -/
def joining : Call :=
  .insertInto (.number 1) "members" [.object [("name", .string "c")]]

/-- The members of the team as copies. -/
def copies : List Value := [.object (member 1 "a")]

/-- The team as it is stored. -/
def theTeam : Document := [("id", .ofNat 1), ("members", .array copies)]

theorem theTeam_found : teams.findById (.number 1) oneTeam.store = .ok theTeam := by
  cbv

theorem theTeam_copies : Listing.items theTeam "members" = .ok copies := by
  cbv

theorem nobody_reaches_oneTeam : teamDatabase.Reaches (fun _ => True) nobody oneTeam := by
  have hmembers : teamDatabase.collection "people" = .ok members := rfl
  have hteams : teamDatabase.collection "teams" = .ok teams := rfl
  have hperson : teamDatabase.Reaches (fun _ => True) nobody onePerson :=
    .single (.call hmembers trivial)
  have hteam : teamDatabase.Reaches (fun _ => True) onePerson oneTeam :=
    .single (.call hteams trivial)
  exact hperson.trans hteam

/-- Nobody in the team is named by who joins. -/
theorem joining_names (n : Nat) :
    ¬ (joining.bounds teamDatabase.registry "people" copies).named "people" (.number n) := by
  rintro (⟨object, ⟨value, hvalue, hmentions⟩, hid⟩ | ⟨_, item, hitem, _⟩)
  · cases List.mem_singleton.mp hvalue
    cases hmentions with
    | own => cases hid
    | inside hstands _ htree hmentions =>
      cases hstands
      cases htree
      cases hmentions with
      | own hstands => cases hstands
      | inside hstands => cases hstands
      | field _ hvalue hmentions =>
        cases List.mem_singleton.mp hvalue
        cases hmentions
  · cases hitem

theorem member_found :
    findDocument (oneTeam.store.documents "people") (.number 1) = some (member 1 "a") := by
  cbv

theorem copies_in_sync :
    joining.KeepsInSync teamDatabase.registry "people" oneTeam.store copies := by
  intro item hin other object hmentions
  have hkept : joining.kept copies = copies := by cbv
  rw [hkept] at hin
  cases List.mem_singleton.mp hin
  cases hmentions with
  | own hstands =>
    cases hstands
    exact Or.inr ⟨.number 1, member 1 "a", rfl, member_found, by cbv⟩
  | inside hstands hskip =>
    cases hstands
    exact absurd ⟨.number 1, rfl, joining_names 1⟩ hskip

/-- What comes of it in a team whose copies are in sync. -/
def joined : Except Error Unit × Running MemoryStore := teams.perform ⟨0, 0⟩ joining oneTeam

theorem joined_succeeds : joined.1 = .ok () := by
  cbv

/-- A member comes to a team whose copies are in sync: the other one stays as it is. -/
theorem joining_leaves : joined.1 = .ok () ∧
    MemoryStore.backend.fetch joined.2.store "people" (.number 1) =
      MemoryStore.backend.fetch oneTeam.store "people" (.number 1) := by
  have hteams : teamDatabase.collection "teams" = .ok teams := rfl
  have hcustom : ¬ joining.Custom := not_false
  have hdone : teams.perform ⟨0, 0⟩ joining oneTeam = (.ok (), joined.2) :=
    Prod.ext joined_succeeds rfl
  refine ⟨joined_succeeds, edit_leaves MemoryStore.backend_actsLike teams_compiled
    (IdSource.ofBytes_exact _) (fun _ => rfl) nobody_reaches_oneTeam hteams rfl hcustom
    (fun _ hin => by cases hin) rfl theTeam_found theTeam_copies copies_in_sync hdone "people"
    (.number 1) ?_ (Or.inl (by decide))⟩
  rintro (hnamed | ⟨_, hfresh⟩)
  · exact joining_names 1 hnamed
  · exact hfresh.1 (MemoryStore.has_iff_find.mpr ⟨_, member_found⟩)

/-- A member comes to a team with a copy that is left behind: the other one gets the old name
back. -/
theorem joining_overwrites :
    teamDatabase.Reaches (fun _ => True) nobody renamed ∧
    (teams.perform ⟨0, 0⟩ joining renamed).1 = .ok () ∧
    ¬ (joining.bounds teamDatabase.registry "people" copies).named "people" (.number 1) ∧
    MemoryStore.backend.fetch renamed.store "people" (.number 1) = .ok (some (member 1 "z")) ∧
    MemoryStore.backend.fetch (teams.perform ⟨0, 0⟩ joining renamed).2.store "people" (.number 1) =
      .ok (some (member 1 "a")) := by
  have hmembers : teamDatabase.collection "people" = .ok members := rfl
  have hrenamed : teamDatabase.Reaches (fun _ => True) oneTeam renamed :=
    .single (.call hmembers trivial)
  exact ⟨nobody_reaches_oneTeam.trans hrenamed, by cbv, joining_names 1, by cbv, by cbv⟩

end DocumentDb
