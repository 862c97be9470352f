import DocumentDb.Proofs.Database.Batches
import DocumentDb.Proofs.Database.Bounds
import Mathlib

/-!
# Updates of several documents

An update of several documents patches them as they were when it began. It has the same effect as
updating each of them by an operation of its own if these single updates are *steady*: each document
is still as it was when its turn comes. That is so if the patch names none of the documents.
-/

namespace DocumentDb

/-- Objects that the input mentions with an id are named by it. -/
theorem Mentions.names {registry : Registry} {skip : String → Object → Prop} {node : Node}
    {value : Value} {collection : String} {object : Object}
    (h : Mentions registry skip node value collection object) {id : DocId}
    (hid : Object.value? object idKey = some id.toValue) :
    Names registry node value collection id := by
  have htarget : ∀ {node : Node} {input : Object} {target : String},
      node.stands? input = some target → node.target? = some target := by
    intro node input target hstands
    cases node with
    | reference collection kind required =>
      simp only [Node.stands?] at hstands
      split_ifs at hstands
      exact hstands
    | document collection required => exact hstands
    | _ => cases hstands
  induction h with
  | own hstands => exact .own (htarget hstands) hid
  | inside hstands _ htree _ ih => exact .inside (htarget hstands) htree (ih hid)
  | field hfield hvalue _ ih => exact .field hfield hvalue (ih hid)
  | item hitem _ ih => exact .item hitem (ih hid)

namespace Collection

variable {σ : Type} (collection : Collection σ)

/-- Change the documents of ids by a patch one after the other, each by an operation of its own and
at a time of its own. -/
def updateEach (patch : Value) : List (Instant × DocId) → Operation σ (List Document)
  | [] => pure []
  | (now, id) :: rest => do
    let first ← collection.updateById now id patch
    let others ← updateEach patch rest
    pure (first :: others)

/-- **Single updates are steady**: each document is as given when its turn comes. -/
inductive Steady (patch : Value) : List (Instant × DocId) → List Document → Running σ → Prop
  | nil {running : Running σ} : Steady patch [] [] running
  | cons {now : Instant} {id : DocId} {rest : List (Instant × DocId)} {existing : Document}
    {others : List Document} {running : Running σ}
    (hexisting : collection.findById id running.store = .ok existing)
    (hrest : ∀ document after, collection.updateById now id patch running = (.ok document, after) →
      Steady patch rest others after) :
    Steady patch ((now, id) :: rest) (existing :: others) running

end Collection

/-! ### Documents found by their ids -/

section Finding
variable {stored documents : List Document}

theorem Identified.filter (h : Identified stored) (test : Document → Bool) :
    Identified (stored.filter test) := fun document hin => h document (List.mem_of_mem_filter hin)

theorem ids_of_identified (h : Identified documents) :
    documents.map Object.id? = (documents.filterMap Object.id?).map some := by
  induction documents with
  | nil => rfl
  | cons document rest ih =>
    obtain ⟨⟨id, hid⟩, hrest⟩ := List.forall_mem_cons.mp h
    rw [List.map_cons, List.filterMap_cons_some hid, List.map_cons, hid, ih hrest]

theorem findDocument_filterMap (hidentified : Identified stored)
    (honce : (stored.map Object.id?).Nodup) (hsublist : documents.Sublist stored) :
    (documents.filterMap Object.id?).map (findDocument stored) = documents.map some := by
  induction documents with
  | nil => rfl
  | cons document rest ih =>
    have hin := hsublist.subset List.mem_cons_self
    obtain ⟨id, hid⟩ := hidentified document hin
    rw [List.filterMap_cons_some hid, List.map_cons, List.map_cons,
      findDocument_of_mem honce hin hid, ih ((List.sublist_cons_self _ _).trans hsublist)]

end Finding

section Updates
variable {σ : Type} {database : Database σ} {view : σ → MemoryStore} {faults : Prop}
  {running : Running σ} {collection : Collection σ} {now : Instant} {patch : Value}
  (hbackend : database.backend.ActsLike view faults) (hregistry : database.registry.Proper)
  (hsource : database.source.Exact) (hcollection : collection.database = database)

/-- An update of a document that is found. -/
theorem updateById_found {id : DocId} {existing : Document}
    (hexisting : collection.findById id running.store = .ok existing) :
    collection.updateById now id patch running =
      (Operation.start >>= fun _ => collection.changeOne now existing patch) running := by
  have hlook : collection.updateById now id patch running =
      (Operation.look (collection.findById id) >>= fun existing =>
        Operation.start >>= fun _ => collection.changeOne now existing patch) running := rfl
  rw [hlook, step_bind]
  unfold Operation.look
  rw [hexisting]

include hbackend hregistry hsource hcollection

/-- **Steady updates have the effect of one update** while the spaces are current. -/
theorem changeAll_same (htimeless : database.registry.Timeless)
    {entries : List (Instant × DocId)} {selected : List Document}
    (hcurrent : running.Current database view) {other : Running σ}
    (hstore : other.store = running.store) (hdrawn : other.work.drawn = running.work.drawn)
    (hsteady : collection.Steady patch entries selected other) :
    SameEffect (collection.changeAll now patch selected running)
      (collection.updateEach patch entries other) := by
  subst hcollection
  induction hsteady generalizing running with
  | nil => exact ⟨rfl, hstore.symm, hdrawn.symm⟩
  | @cons time id rest existing others other hexisting _ ih =>
    have hin := (findDocument_eq_some (findById_ok hbackend rfl hexisting)).1
    rw [hstore] at hin
    have hchangeable := hcurrent.ready.sound.changeable hin
    have hdelivers : ∀ now, (collection.database.ground view now True (fun _ _ => True)
        running.store).Sound → Delivers (collection.database.ground view now True
          (fun _ _ => True) running.store) collection.name
          (Build.change collection.name existing patch) :=
      fun _ hground => change_delivers hground hchangeable fun _ _ _ => trivial
    have hagrees : ∀ time, Build.AgreesAlone (collection.database.context now running.store) time
        (Build.change collection.name existing patch) := fun _ => Build.change_agrees htimeless
    have hsame := buildAndCommit_same hbackend hregistry hsource hcurrent hdelivers hstore hdrawn
      (hagrees time)
    have hcurrent' := buildAndCommit_current hbackend hregistry hsource hcurrent hdelivers
      (hagrees now)
    have hfirst : SameEffect (collection.changeOne now existing patch running)
        (collection.updateById time id patch other) := by
      rw [updateById_found hexisting]
      exact hsame
    refine SameEffect.bind hfirst fun first after after' hdone hdone' hstore hdrawn => ?_
    exact SameEffect.bind (ih first after' hdone' hstore.symm hdrawn.symm
      (hcurrent'.of_ok hdone)) fun _ _ _ _ _ hstore hdrawn => ⟨rfl, hstore, hdrawn⟩

/-- An update leaves the documents alone that its patch does not name. -/
theorem updateById_leaves
    (hsound : (view running.store).Sound database.registry ((view running.store).Knows True))
    {tree : Tree} (htree : database.registry.tree? collection.name = some tree) {id : DocId} :
    Ensures (collection.updateById now id patch) running
      (fun _ after =>
        (view after.store).Sound database.registry ((view after.store).Knows True) ∧
        ∀ other own, (view running.store).Has other own →
          ¬ Names database.registry (.nested tree.fields) patch other own →
          (other ≠ collection.name ∨ own ≠ id) →
          findDocument ((view after.store).documents other) own =
            findDocument ((view running.store).documents other) own)
      (fun _ _ => True) := by
  have hsettles : Settles database view True (fun _ _ => True) running
      (collection.updateById now id patch) :=
    updateById_settles hbackend hcollection hregistry hsource (fun _ => trivial)
      fun _ _ _ => trivial
  have hsettled := (hsettles hsound).mono (fun _ _ h => h.sound) fun _ _ _ => trivial
  have hleaves : Ensures (collection.updateById now id patch) running
      (fun _ after => ∀ other own, (view running.store).Has other own →
        ¬ Names database.registry (.nested tree.fields) patch other own →
        (other ≠ collection.name ∨ own ≠ id) →
        findDocument ((view after.store).documents other) own =
          findDocument ((view running.store).documents other) own)
      (fun _ _ => True) := by
    refine ensures_bind.mpr ?_
    unfold Ensures Operation.look
    cases hexisting : collection.findById id running.store with
    | error e => exact trivial
    | ok existing =>
      obtain ⟨hin, hid⟩ := findDocument_eq_some (findById_ok hbackend hcollection hexisting)
      let bounds : Bounds :=
        { named := Names database.registry (.nested tree.fields) patch, created := fun _ => True }
      have hpatch : ∀ other : Tree, database.registry.tree? collection.name = some other →
          Mentioned database.registry bounds.Spares (bounds.Tolerates (view running.store))
            (.nested other.fields) patch := by
        intro other hother name object hmentions
        rw [htree] at hother
        cases hother
        exact ⟨fun own hown => Or.inl (hmentions.names hown), fun _ => trivial⟩
      refine ensures_bind.mpr (ensures_modify.mpr ?_)
      have hstart : ({ running with work := running.work.fresh } : Running σ).Ready database view
          True := fresh_ready hsound
      refine (changeOne_leaves hbackend hregistry hsource hcollection hstart hid
        (hsound.changeable hin) hpatch).mono ?_ fun _ _ h => h
      rintro _ after hkept other own hhas hunnamed helse
      refine hkept other own ?_ helse
      rintro (hnames | ⟨_, hfresh⟩)
      · exact hunnamed hnames
      · exact hfresh.1 hhas
  exact (hsettled.and hleaves).mono (fun _ _ h => h) fun _ _ _ => trivial

/-- **Updates are steady whose patch names none of the documents.** -/
theorem steady_of_unnamed
    (hsound : (view running.store).Sound database.registry ((view running.store).Knows True))
    {tree : Tree} (htree : database.registry.tree? collection.name = some tree)
    {entries : List (Instant × DocId)} {selected : List Document}
    (hfound : entries.map (fun entry => findDocument
      ((view running.store).documents collection.name) entry.2) = selected.map some)
    (honce : (entries.map (·.2)).Nodup)
    (hunnamed : ∀ entry ∈ entries,
      ¬ Names database.registry (.nested tree.fields) patch collection.name entry.2) :
    collection.Steady patch entries selected running := by
  induction entries generalizing selected running with
  | nil =>
    cases selected with
    | nil => exact .nil
    | cons _ _ => cases hfound
  | cons entry rest ih =>
    obtain ⟨time, id⟩ := entry
    cases selected with
    | nil => cases hfound
    | cons existing others =>
      simp only [List.map_cons, List.cons.injEq] at hfound
      obtain ⟨hexisting, hrest⟩ := hfound
      simp only [List.map_cons, List.nodup_cons] at honce
      obtain ⟨_, hothers⟩ := List.forall_mem_cons.mp hunnamed
      refine .cons ?_ fun document after hdone => ?_
      · subst hcollection
        unfold Collection.findById
        rw [hbackend.fetch, hexisting]
        rfl
      · obtain ⟨hafter, hkept⟩ := (updateById_leaves hbackend hregistry hsource hcollection hsound
          htree).of_ok hdone
        refine ih hafter ?_ honce.2 hothers
        rw [← hrest]
        refine List.map_congr_left fun entry hin => ?_
        -- The documents behind the first one are stored, unnamed and not the first one.
        have hstored : findDocument ((view running.store).documents collection.name) entry.2 ∈
            others.map some := hrest ▸ List.mem_map_of_mem hin
        obtain ⟨other, _, hother⟩ := List.mem_map.mp hstored
        refine hkept _ _ (MemoryStore.has_iff_find.mpr ⟨other, hother.symm⟩) (hothers entry hin)
          (Or.inr ?_)
        rintro rfl
        exact honce.1 (List.mem_map_of_mem hin)

omit hregistry hsource in
/-- Selected documents are those of their ids. -/
theorem selected_found
    (hsound : (view running.store).Sound database.registry ((view running.store).Knows True))
    {query : Query} {selected : List Document}
    (hselected : collection.selected query running.store = .ok selected)
    {entries : List (Instant × DocId)}
    (hids : entries.map (·.2) = selected.filterMap Object.id?) :
    entries.map (fun entry => findDocument ((view running.store).documents collection.name)
        entry.2) = selected.map some ∧ (entries.map (·.2)).Nodup := by
  subst hcollection
  unfold Collection.selected Collection.documents at hselected
  rw [hbackend.all] at hselected
  obtain ⟨_, _, hselected⟩ := bind_ok_iff.mp hselected
  obtain ⟨all, hall, hselected⟩ := bind_ok_iff.mp hselected
  cases hall
  cases hselected
  have hsome := ids_of_identified ((hsound.identified collection.name).filter query.selects)
  constructor
  · rw [← Function.comp_def (findDocument _) Prod.snd, ← List.map_map, hids]
    exact findDocument_filterMap (hsound.identified collection.name)
      (hsound.once collection.name) List.filter_sublist
  · rw [hids]
    have hnodup : ((((view running.store).documents collection.name).filter
        query.selects).map Object.id?).Nodup :=
      (hsound.once collection.name).sublist (List.filter_sublist.map _)
    rw [hsome] at hnodup
    exact hnodup.of_map

end Updates

/-- **An update of several documents equals its single updates** if these are steady, and they are
if the patch names none of the documents. -/
theorem updateMany_eq_updateEach {σ : Type} {database : Database σ} {view : σ → MemoryStore}
    (hbackend : database.backend.ActsLike view False) (hregistry : database.registry.Compiled)
    (htimeless : database.registry.Timeless) (hsource : database.source.Exact)
    {start running : Running σ} (hempty : ∀ name, (view start.store).documents name = [])
    (hreaches : database.Reaches (fun _ => True) start running) {name : String}
    {collection : Collection σ} (hcollection : database.collection name = .ok collection)
    (now : Instant) {query : Query} (patch : Value) {selected : List Document}
    (hselected : collection.selected query running.store = .ok selected)
    {entries : List (Instant × DocId)}
    (hids : entries.map (·.2) = selected.filterMap Object.id?) :
    (collection.Steady patch entries selected running →
      SameEffect (collection.updateMany now query patch running)
        (collection.updateEach patch entries running)) ∧
    ((∀ entry ∈ entries,
        ¬ Names database.registry (.nested collection.tree.fields) patch name entry.2) →
      collection.Steady patch entries selected running) := by
  obtain ⟨hdatabase, hname, htree⟩ := collection_ok hcollection
  have hsound := Reaches.sound_of_empty hbackend hregistry hsource hreaches hempty
  constructor
  · intro hsteady
    have hcurrent : ({ running with work := running.work.fresh } : Running σ).Current database
        view := fresh_current hsound
    have hlook : collection.updateMany now query patch running =
        (Operation.look (collection.selected query) >>= fun existing =>
          Operation.start >>= fun _ => collection.changeAll now patch existing) running := rfl
    rw [hlook, step_bind]
    unfold Operation.look
    rw [hselected]
    exact changeAll_same hbackend hregistry.proper hsource hdatabase htimeless hcurrent rfl rfl
      hsteady
  · intro hunnamed
    obtain ⟨hfound, honce⟩ := selected_found hbackend hdatabase hsound hselected hids
    rw [← hname] at htree hunnamed
    exact steady_of_unnamed hbackend hregistry.proper hsource hdatabase hsound htree hfound honce
      hunnamed

/-! ### People and their friends -/

/-- A schema by which people embed a friend. -/
def friendDefinitions : List Definition :=
  [⟨"people", {}, [("name", .string "String"), ("level", .string "Number"),
    ("friend", .object [("schema", .string "people")])]⟩]

/-- The compiled schema of people. -/
def personTree : Tree where
  collection := "people"
  id := .standard
  fields := [("name", .scalar .string {}), ("level", .scalar .number {}),
    ("friend", .document "people" false)]
  settings := {}

theorem friends_compiled : Registry.Compiled { shardMax := 1000, trees := [personTree] } := by
  refine ⟨1000, friendDefinitions, rfl, fun definition hin => ?_⟩
  cases List.mem_singleton.mp hin
  simp [Value.keysOnce_object_iff, Value.KeysOnce.string, Object.keys]

/-- A database of people. -/
def friendDatabase : Database MemoryStore where
  registry := { shardMax := 1000, trees := [personTree] }
  backend := MemoryStore.backend
  source := IdSource.ofBytes .empty

/-- The people of the database. -/
def people : Collection MemoryStore := ⟨friendDatabase, personTree⟩

/-- A database without people. -/
def nobody : Running MemoryStore where
  store := { shardMax := 1000 }

/-- The state after two people were inserted. -/
def twoPeople : Running MemoryStore :=
  (people.perform ⟨0, 0⟩ (.insertMany [.object [("name", .string "a")],
    .object [("name", .string "b")]]) nobody).2

theorem nobody_reaches_twoPeople :
    friendDatabase.Reaches (fun _ => True) nobody twoPeople := by
  have hpeople : friendDatabase.collection "people" = .ok people := rfl
  exact .single (.call hpeople trivial)

/-- The first person as it is stored. -/
def firstPerson : Document := [("id", .number (.int 1)), ("name", .string "a")]

/-- The second person as it is stored. -/
def secondPerson : Document := [("id", .number (.int 2)), ("name", .string "b")]

theorem everybody_selected :
    people.selected {} twoPeople.store = .ok [firstPerson, secondPerson] := by
  cbv

/-- A level that everybody gets. -/
def raised : Value := .object [("level", .number (.int 5))]

/-- Raising everybody at once is raising one after the other. -/
theorem raised_same : SameEffect (people.updateMany ⟨0, 0⟩ {} raised twoPeople)
    (people.updateEach raised [(⟨1, 0⟩, .number 1), (⟨2, 0⟩, .number 2)] twoPeople) := by
  have htimeless : friendDatabase.registry.Timeless := by
    intro tree hin
    cases List.mem_singleton.mp hin
    exact ⟨rfl, rfl⟩
  have hpeople : friendDatabase.collection "people" = .ok people := rfl
  obtain ⟨hsame, hsteady⟩ := updateMany_eq_updateEach MemoryStore.backend_actsLike friends_compiled
    htimeless (IdSource.ofBytes_exact _) (fun _ => rfl) nobody_reaches_twoPeople hpeople ⟨0, 0⟩
    raised everybody_selected
    (show [(⟨1, 0⟩, .number 1), (⟨2, 0⟩, .number 2)].map Prod.snd =
      [firstPerson, secondPerson].filterMap Object.id? from rfl)
  refine hsame (hsteady fun entry _ hnames => ?_)
  cases hnames with
  | own htarget => cases htarget
  | inside htarget => cases htarget
  | field hfield hvalue hnames =>
    cases List.mem_singleton.mp hvalue
    cases hnames

/-- A patch that embeds the second person with a new level. -/
def befriended : Value :=
  .object [("friend", .object [("id", .number (.int 2)), ("level", .number (.int 5))])]

/-- The second person with the new level. -/
def raisedFriend : Document :=
  [("id", .number (.int 2)), ("name", .string "b"), ("level", .number (.int 5))]

/-- The update of both people. -/
def befriending : Except Error (List Document) × Running MemoryStore :=
  people.updateMany ⟨0, 0⟩ {} befriended twoPeople

/-- The updates of one and then the other. -/
def befriendingEach : Except Error (List Document) × Running MemoryStore :=
  people.updateEach befriended [(⟨0, 0⟩, .number 1), (⟨0, 0⟩, .number 2)] twoPeople

/-- The update of both people embeds the second one into the first one with a new level, and then
changes the second one as it was before: the level is lost. Single updates keep it. -/
theorem befriending_differs :
    friendDatabase.Reaches (fun _ => True) nobody twoPeople ∧
    people.selected {} twoPeople.store = .ok [firstPerson, secondPerson] ∧
    befriending.1 = .ok [firstPerson ++ [("friend", .object raisedFriend)],
      secondPerson ++ [("friend", .object raisedFriend)]] ∧
    befriendingEach.1 = .ok [firstPerson ++ [("friend", .object raisedFriend)],
      raisedFriend ++ [("friend", .object raisedFriend)]] ∧
    ¬ SameEffect befriending befriendingEach := by
  have htogether : befriending.1 = .ok [firstPerson ++ [("friend", .object raisedFriend)],
      secondPerson ++ [("friend", .object raisedFriend)]] := by
    cbv
  have heach : befriendingEach.1 = .ok [firstPerson ++ [("friend", .object raisedFriend)],
      raisedFriend ++ [("friend", .object raisedFriend)]] := by
    cbv
  refine ⟨nobody_reaches_twoPeople, everybody_selected, htogether, heach, fun hsame => ?_⟩
  have hequal := hsame.result
  rw [htogether, heach] at hequal
  simp [secondPerson, raisedFriend] at hequal

end DocumentDb
