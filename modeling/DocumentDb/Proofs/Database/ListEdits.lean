import DocumentDb.Proofs.Database.Current
import DocumentDb.Proofs.Database.Runs
import DocumentDb.Proofs.Database.Upkeep
import DocumentDb.Proofs.Document.PlainLists
import Mathlib

/-!
# Edits of lists of plain values

An edit reads the list of a document, computes the new items and writes them by a patch of one path.
For lists of plain values the three parts agree: the stored list is the computed one, with what is
new in it cast, and nothing else in the document changes but the time of its change
(`plain_edits_stored`).

That is so at every path that leads to such a list, but under the key of a time that the documents
of the collection keep by themselves: what a patch has under this key is skipped, and the edit
succeeds without storing anything (`marks_not_stored`).
-/

namespace DocumentDb

/-- **A list was stored** in the document of an id. What other paths lead to in the document is
unchanged, unless they lead to an object around the list or are of the time of change, and so are
all other documents. -/
structure Collection.ListStored {σ : Type} (collection : Collection σ) (id : DocId) (path : String)
    (document changed : Document) (items : List Value) (before after : σ) : Prop where
  items : changed.follow? (Text.splitAt '.' path) = some (.array items)
  others : ∀ other, ¬ other <+: Text.splitAt '.' path →
    (collection.tree.settings.updatedAt = true → other.head? ≠ some updatedKey) →
      changed.follow? other = document.follow? other
  found : collection.findById id after = .ok changed
  elsewhere : ∀ other own, other ≠ collection.name ∨ own ≠ id →
    collection.database.backend.fetch after other own =
      collection.database.backend.fetch before other own

/-! ### What is read -/

/-- The list of plain values of a document is read as it is stored. -/
theorem Object.KeepsCasts.items {registry : Registry} {collection path : String} {tree : Tree}
    {element : Element} {document : Document} (h : Object.KeepsCasts registry collection document)
    (htree : registry.tree? collection = some tree) (helement : tree.element path = .ok element)
    (hplain : element.Plain)
    (hfree : ∀ first ∈ (Text.splitAt '.' path).head?, first ∉ tree.managedKeys) :
    ∃ current, document.ListsAt path current ∧ Listing.items document path = .ok current ∧
      element.Stores current := by
  obtain ⟨node, hfollow, hnode⟩ := Tree.node_of_element helement
  refine Object.HoldsAt.items ?_ Element.stores_nil
  cases hpath : Text.splitAt '.' path with
  | nil => rw [hpath] at hfollow; cases hfollow
  | cons name rest =>
    rw [hpath] at hfollow hfree
    exact h tree htree name rest node element hfollow hnode hplain (hfree name rfl)

/-! ### What is written -/

section Edits
variable {σ : Type} {database : Database σ} {view : σ → MemoryStore} {running : Running σ}
  {collection : Collection σ} {element : Element} {id : DocId} {document : Document}
  {path : String} {current : List Value} {now : Instant}

/-- **Along a run from an empty store** the documents keep their lists of plain values as cast. -/
theorem Reaches.keepsCasts {faults : Prop} (hbackend : database.backend.ActsLike view faults)
    (hregistry : database.registry.Proper) {empty : σ}
    (hempty : ∀ name, (view empty).documents name = []) {allowed : Call → Prop}
    (hreaches : database.Reaches allowed { store := empty } running) :
    (view running.store).Holds (view empty).shardMax (Object.KeepsCasts database.registry) :=
  Reaches.holds hbackend hempty (fun _ _ hlimit hfetched =>
    keepsCasts_vetting hlimit hregistry hfetched) hreaches

/-- **An edit of a list of plain values** writes what the new items are cast to, and nothing
else. -/
theorem changeList_plain (hbackend : database.backend.ActsLike view False)
    (hregistry : database.registry.Proper) (hsource : database.source.Exact)
    (hcollection : collection.database = database)
    (hsound : (view running.store).Sound database.registry ((view running.store).Knows True))
    (htree : database.registry.tree? collection.name = some collection.tree)
    (helement : collection.tree.element path = .ok element) (hplain : element.Plain)
    (hfree : ∀ first ∈ (Text.splitAt '.' path).head?, first ∉ collection.tree.managedKeys)
    (hdocument : collection.findById id running.store = .ok document)
    (hlists : document.ListsAt path current) (hcurrent : Listing.items document path = .ok current)
    {edit : Element → List Value → Build (List Value)} {result : Except Error (List Value)}
    (hedit : edit element current = Build.lift result) :
    Ensures (collection.changeList now id path edit) running
      (fun changed after => ∃ items built, result = .ok items ∧
        List.Forall₂ element.Casts items built ∧
        collection.ListStored id path document changed built running.store after.store)
      (fun _ after => after.store = running.store) := by
  have hfound := findById_ok hbackend hcollection hdocument
  obtain ⟨node, hfollow, hnode⟩ := Tree.node_of_element helement
  cases hpath : Text.splitAt '.' path with
  | nil => rw [hpath] at hfollow; cases hfollow
  | cons name rest =>
    rw [hpath] at hfollow hfree
    have hname : name ∉ collection.tree.managedKeys := hfree name rfl
    refine ensures_look helement (ensures_look hdocument (ensures_look hcurrent ?_))
    refine ensures_bind.mpr (ensures_modify.mpr (ensures_bind.mpr (ensures_build.mpr ?_)))
    rw [hedit]
    refine ensures_lift _ (fun items hitems => ?_) fun _ _ => rfl
    obtain ⟨ids, hstate, -⟩ := state_of_sound hbackend hsound collection.name
    have hspace := found_fresh (Registry.tree_ok_iff.mpr htree) hstate now
    have hid := (findDocument_eq_some hfound).2
    have hlist : ∀ inner, document.follow? (name :: rest) ≠ some (.object inner) := by
      rw [← hpath]
      exact hlists.not_object
    refine (changeOne_alone hbackend hregistry hsource not_false hsound hcollection hfound
      (P := fun changed => ∃ built, List.Forall₂ element.Casts items built ∧
        changed = collection.tree.withList now document (name :: rest) built)
      ((Build.change_plain htree hspace hid hpath hfollow hnode hplain hname).mono ?_ fun _ _ h =>
        h)).mono ?_ fun _ _ h => h.1
    · rintro changed work ⟨built, hcasts, rfl, hpending⟩
      exact ⟨⟨built, hcasts, rfl⟩, id?_withList hname now hid, hpending⟩
    · rintro changed after ⟨⟨built, hcasts, rfl⟩, hfetch⟩
      subst hcollection
      refine ⟨items, built, hitems, hcasts, ?_, fun other hother htime => ?_, ?_,
        fun other own hother => ?_⟩
      · rw [hpath, follow?_withList hname]
      · rw [hpath] at hother
        exact follow?_withList_elsewhere hname now hlist hother htime
      · refine findById_of_found hbackend rfl ?_
        rw [hfetch, if_pos ⟨rfl, rfl⟩]
      · rw [hbackend.fetch, hbackend.fetch, hfetch, if_neg]
        rintro ⟨rfl, rfl⟩
        exact hother.elim (absurd rfl) (absurd rfl)

/-- **Edits of a list of plain values store exactly their result**, in any state that calls lead to.
Values that are added come behind the old items, as what they are cast to; a removal leaves out the
items that are the same as a given value; and an update by an expression puts what its only value is
cast to in the place of the selected items. The items that are kept stay as they are, nothing else
changes but the time of change, and the document is found as it is returned. An edit that fails
stores nothing. -/
theorem plain_edits_stored (hbackend : database.backend.ActsLike view False)
    (hregistry : database.registry.Compiled) (hsource : database.source.Exact) {empty : σ}
    (hempty : ∀ name, (view empty).documents name = [])
    (hreaches : database.Reaches (fun _ => True) { store := empty } running) {name : String}
    (hcollection : database.collection name = .ok collection)
    (helement : collection.tree.element path = .ok element) (hplain : element.Plain)
    (hfree : ∀ first ∈ (Text.splitAt '.' path).head?, first ∉ collection.tree.managedKeys)
    (hdocument : collection.findById id running.store = .ok document) (now : Instant) :
    ∃ current, document.ListsAt path current ∧
      (∀ values, Ensures (collection.insertInto now id path values) running
        (fun changed after => ∃ casts, List.Forall₂ element.Casts values casts ∧
          collection.ListStored id path document changed (current ++ casts) running.store after.store)
        (fun _ after => after.store = running.store)) ∧
      (∀ values, Ensures (collection.removeFrom now id path values) running
        (fun changed after => collection.ListStored id path document changed
          (current.filter fun item => !values.any (Value.same item)) running.store after.store)
        (fun _ after => after.store = running.store)) ∧
      ∀ e updates, Ensures (collection.updateArray now id path (.expression e) updates) running
        (fun changed after => ∃ update items, updates = [update] ∧
          e.Rewrites (fun _ new => element.Casts update new) current items ∧
          collection.ListStored id path document changed items running.store after.store)
        (fun _ after => after.store = running.store) := by
  obtain ⟨rfl, rfl, htree⟩ := collection_ok hcollection
  have hproper := hregistry.proper
  have hsound := Reaches.sound_of_empty hbackend hregistry hsource hreaches hempty
  have hholds := Reaches.keepsCasts hbackend hproper hempty hreaches
  have hin := (findDocument_eq_some (findById_ok hbackend rfl hdocument)).1
  obtain ⟨current, hlists, hcurrent, hstores⟩ :=
    (hholds.each _ _ hin).2.items htree helement hplain hfree
  have hwrites : ∀ {edit : Element → List Value → Build (List Value)} {result},
      edit element current = Build.lift result →
        Ensures (collection.changeList now id path edit) running _ _ := fun hedit =>
    changeList_plain hbackend hproper hsource rfl hsound htree helement hplain hfree hdocument
      hlists hcurrent hedit
  refine ⟨current, hlists, fun values => ?_, fun values => ?_, fun e updates => ?_⟩
  · refine (hwrites (Listing.insert_plain hplain)).mono ?_ fun _ _ h => h
    rintro changed after ⟨_, built, ⟨⟩, hcasts, hstored⟩
    obtain ⟨casts, hvalues, rfl⟩ := hstores.append_casts hcasts
    exact ⟨casts, hvalues, hstored⟩
  · refine (hwrites rfl).mono ?_ fun _ _ h => h
    rintro changed after ⟨_, built, ⟨⟩, hcasts, hstored⟩
    rw [Listing.remove_plain hplain] at hcasts
    have hkept := (hstores.of_mem fun _ => List.mem_of_mem_filter).eq_of_casts hcasts
    rwa [hkept] at hstored
  · refine (hwrites rfl).mono ?_ fun _ _ h => h
    rintro changed after ⟨edited, built, hedited, hcasts, hstored⟩
    obtain ⟨update, rfl, hrewrites⟩ := Listing.update_plain hplain hedited
    exact ⟨update, built, rfl, hstores.rewrites_casts hrewrites hcasts, hstored⟩

end Edits

/-! ### Labels of albums -/

/-- A schema by which albums have labels in small letters. They keep the time at which they were
made, although they declare a nested object under its key. -/
def albumDefinitions : List Definition :=
  [⟨"albums", { createdAt := true },
    [("meta", .object [("labels", .array [.object [("type", .string "String"),
        ("lowercase", .bool true)]]), ("public", .string "Boolean")]),
      ("created_at", .object [("marks", .array [.string "Number"])])]⟩]

/-- The compiled schema of albums. -/
def albumTree : Tree where
  collection := "albums"
  id := .standard
  fields := [("meta", .nested [("labels", .list (.scalar .string { lowercase := true })),
      ("public", .scalar .boolean {})]),
    ("created_at", .nested [("marks", .list (.scalar .number {}))])]
  settings := { createdAt := true }

theorem albums_compiled : Registry.Compiled { shardMax := 1000, trees := [albumTree] } := by
  refine ⟨1000, albumDefinitions, rfl, fun definition hin => ?_⟩
  cases List.mem_singleton.mp hin
  simp [Value.keysOnce_object_iff, Value.keysOnce_array_iff, Value.KeysOnce.string,
    Value.KeysOnce.bool, Object.keys]

/-- A database of albums. -/
def albumDatabase : Database MemoryStore where
  registry := { shardMax := 1000, trees := [albumTree] }
  backend := MemoryStore.backend
  source := IdSource.ofBytes .empty

/-- The albums of the database. -/
def albums : Collection MemoryStore := ⟨albumDatabase, albumTree⟩

/-- A store in memory without albums. -/
def noAlbums : Running MemoryStore where
  store := { shardMax := 1000 }

/-- The state after an album was inserted. -/
def oneAlbum : Running MemoryStore :=
  (albums.perform ⟨0, 0⟩ (.insert (.object [("meta", .object [("labels", .array [.string "A"]),
    ("public", .bool true)])])) noAlbums).2

/-- The album as it is stored. -/
def theAlbum : Document :=
  [("id", .ofNat 1), ("meta", .object [("labels", .array [.string "a"]), ("public", .bool true)]),
    ("created_at", .string "1970-01-01T00:00:00.000Z")]

theorem theAlbum_found : albums.findById (.number 1) oneAlbum.store = .ok theAlbum := by cbv

theorem noAlbums_reaches_oneAlbum : albumDatabase.Reaches (fun _ => True) noAlbums oneAlbum := by
  have halbums : albumDatabase.collection "albums" = .ok albums := rfl
  exact .single (.call halbums trivial)

set_option maxRecDepth 2000 in
/-- Labels are added in small letters, and one that is there already is added once more. -/
theorem labels_added : ∃ changed after,
    albums.insertInto ⟨0, 0⟩ (.number 1) "meta.labels" [.string "B", .string "A"] oneAlbum =
      (.ok changed, after) ∧
    albums.ListStored (.number 1) "meta.labels" theAlbum changed
      [.string "a", .string "b", .string "a"] oneAlbum.store after.store := by
  have halbums : albumDatabase.collection "albums" = .ok albums := rfl
  have hempty : ∀ name, noAlbums.store.documents name = [] := fun _ => rfl
  have helement : albums.tree.element "meta.labels" =
      .ok (.scalar .string { lowercase := true }) := rfl
  have hfree : ∀ first ∈ (Text.splitAt '.' "meta.labels").head?,
      first ∉ albumTree.managedKeys := by decide
  obtain ⟨current, hlists, hinsert, -⟩ :=
    @plain_edits_stored MemoryStore albumDatabase id oneAlbum albums _ (.number 1) theAlbum
      "meta.labels" MemoryStore.backend_actsLike albums_compiled (IdSource.ofBytes_exact _)
      noAlbums.store hempty noAlbums_reaches_oneAlbum "albums" halbums helement .scalar hfree
      theAlbum_found ⟨0, 0⟩
  have hcurrent : current = [.string "a"] := by
    rcases hlists with ⟨hnone, -⟩ | hlist
    · cases hnone
    · exact ((Value.array.inj (Option.some.inj hlist))).symm
  subst hcurrent
  have hdone : ∃ changed, (albums.insertInto ⟨0, 0⟩ (.number 1) "meta.labels"
      [.string "B", .string "A"] oneAlbum).1 = .ok changed := ⟨_, by cbv⟩
  obtain ⟨changed, hchanged⟩ := hdone
  obtain ⟨casts, hcasts, hstored⟩ := (hinsert _).of_ok (Prod.ext hchanged rfl)
  have hlabel : ∀ {raw label : String} {item : Value},
      Rules.cast "" .string { lowercase := true } (.string raw) = .ok (.string label) →
        Element.Casts (.scalar .string { lowercase := true }) (.string raw) item →
          item = .string label := by
    rintro raw label item hlower (_ | hitem)
    exact Except.ok.inj ((Rules.cast_ok_iff.mpr hitem).symm.trans hlower)
  have hlabels : casts = [.string "b", .string "a"] := by
    obtain _ | ⟨hfirst, _ | ⟨hsecond, _ | _⟩⟩ := hcasts
    have hb : Rules.cast "" .string { lowercase := true } (.string "B") = .ok (.string "b") := by
      cbv
    have ha : Rules.cast "" .string { lowercase := true } (.string "A") = .ok (.string "a") := by
      cbv
    rw [hlabel hb hfirst, hlabel ha hsecond]
  subst hlabels
  exact ⟨changed, _, Prod.ext hchanged rfl, hstored⟩

/-- **Under the key of a time that is kept** an edit succeeds without storing anything: the number
is not in the list afterwards, which is not even there. -/
theorem marks_not_stored :
    albumDatabase.Reaches (fun _ => True) noAlbums oneAlbum ∧
    albums.tree.element "created_at.marks" = .ok (.scalar .number {}) ∧
    albums.findById (.number 1) oneAlbum.store = .ok theAlbum ∧
    (albums.insertInto ⟨0, 0⟩ (.number 1) "created_at.marks" [.ofNat 5] oneAlbum).1 =
      .ok theAlbum ∧
    albums.findById (.number 1) (albums.insertInto ⟨0, 0⟩ (.number 1) "created_at.marks" [.ofNat 5]
      oneAlbum).2.store = .ok theAlbum ∧
    theAlbum.follow? (Text.splitAt '.' "created_at.marks") = none :=
  ⟨noAlbums_reaches_oneAlbum, rfl, theAlbum_found, by cbv, by cbv, rfl⟩

end DocumentDb
