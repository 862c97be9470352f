import DocumentDb.Proofs.Document.Selection
import DocumentDb.Proofs.Json.Equality

/-!
# Updates of items by a key

A batch of updates that a key relates to the items of a list is laid over the items one update after
the other, each on the list that the former ones left. Nothing depends on that order between items:
an update leaves the key of an item equal to what it was, though perhaps not the same, so each item
gets the updates that name it as it was at first, in the order of the batch.

* `Listing.update_keyed`: the batch succeeds if each update names an item of the list as it was, and
  then each item has the fields of the updates that name it laid over its own.
-/

namespace DocumentDb

/-! ### Which updates name an item -/

/-- **Whether an update names an item**: by its id in a list of documents, and by an equal value of
the key in a list of objects. -/
def Element.names (element : Element) (key : String) (item : Value) (update : Object) : Bool :=
  match element with
  | .document _ => (Object.id? update).isSome && DocId.ofIdOrObject? item == Object.id? update
  | _ =>
    match item.field? key, Object.value? update key with
    | some value, some wanted => Value.same value wanted
    | _, _ => false

/-- **An item with the fields of several updates laid over it**, one update after the other. -/
inductive OverlaidByAll : List Object → Value → Value → Prop
  | nil {item : Value} : OverlaidByAll [] item item
  | cons {update : Object} {rest : List Object} {item next new : Value}
      (hfirst : Overlaid update item next) (hrest : OverlaidByAll rest next new) :
      OverlaidByAll (update :: rest) item new

theorem Overlaid.field? {update : Object} {item new : Value} (h : Overlaid update item new)
    (name : String) : new.field? name = (Object.value? update name).or (item.field? name) := by
  cases h with
  | fields hvalues => exact hvalues name
  | replaced hitem =>
    have hnone : item.field? name = none := by
      cases item with
      | object => cases hitem
      | _ => rfl
    rw [hnone, Option.or_none]
    rfl

/-- **The last update that has a field counts.** -/
theorem OverlaidByAll.field? {updates : List Object} {item new : Value}
    (h : OverlaidByAll updates item new) (name : String) : new.field? name =
      (updates.reverse.findSome? fun update => Object.value? update name).or
        (item.field? name) := by
  induction h with
  | nil => simp
  | cons hfirst _ ih =>
    rw [ih, hfirst.field?, List.reverse_cons, List.findSome?_append, Option.or_assoc]
    simp

section Laying
variable {element : Element} {key : String} {item : Value} {update : Object}

/-- An item with an update laid over it if the update names it. -/
def Element.lay (element : Element) (key : String) (update : Object) (item : Value) : Value :=
  if element.names key item update then overlay update item else item

/-- An item with all updates laid over it that name it. -/
def Element.layAll (element : Element) (key : String) (updates : List Object) (item : Value) :
    Value :=
  (updates.filter (element.names key item)).foldl (fun item update => overlay update item) item

theorem Value.KeysOnce.overlay (hitem : item.KeysOnce) (hupdate : (Value.object update).KeysOnce) :
    (overlay update item).KeysOnce := by
  cases item with
  | object fields =>
    have hkeys : (Object.keys (Object.putAll fields update)).Nodup := by
      rw [Object.keys_putAll hupdate.keys]
      refine List.nodup_append.mpr ⟨hitem.keys, hupdate.keys.filter _, ?_⟩
      rintro key hold other hnew rfl
      simpa [hold] using List.of_mem_filter hnew
    refine .object hkeys fun field hin => ?_
    rcases Object.mem_putAll hin with hin | hin
    · exact hitem.field field hin
    · exact hupdate.field field hin
  | _ => exact hupdate

theorem Value.KeysOnce.lay (hitem : item.KeysOnce) (hupdate : (Value.object update).KeysOnce) :
    (element.lay key update item).KeysOnce := by
  unfold Element.lay
  split_ifs
  · exact hitem.overlay hupdate
  · exact hitem

theorem field?_overlay (hupdate : (Value.object update).KeysOnce) (item : Value) (name : String) :
    (DocumentDb.overlay update item).field? name =
      (Object.value? update name).or (item.field? name) :=
  (overlaid_overlay hupdate.keys item).field? name

/-- An item keeps its id when an update with this id is laid over it. -/
theorem ofIdOrObject?_overlay {id : DocId} (hupdate : (Value.object update).KeysOnce)
    (hid : Object.id? update = some id) (item : Value) :
    DocId.ofIdOrObject? (DocumentDb.overlay update item) = some id := by
  have hvalue : (DocumentDb.overlay update item).field? idKey = some id.toValue := by
    rw [field?_overlay hupdate, Object.value?_id hid, Option.some_or]
  have hown := (Object.id?_eq_some_iff.mp hid).2
  cases item with
  | object fields =>
    have hfield : Object.value? (Object.putAll fields update) idKey = some id.toValue := hvalue
    simp [DocumentDb.overlay, DocId.ofIdOrObject?, hfield, hown]
  | _ => exact hid

/-- **An update leaves open which updates name an item.** A value of a key is replaced by an equal
one, and equal values are equal to the same values. -/
theorem names_lay (hitem : item.KeysOnce) (hupdate : (Value.object update).KeysOnce)
    (other : Object) :
    element.names key (element.lay key update item) other = element.names key item other := by
  unfold Element.lay
  split_ifs with hnames
  · cases element with
    | document target =>
      simp only [Element.names, Bool.and_eq_true, beq_iff_eq, Option.isSome_iff_exists] at hnames ⊢
      obtain ⟨⟨id, hid⟩, hsame⟩ := hnames
      simp only [ofIdOrObject?_overlay hupdate hid, hsame, hid]
    | _ =>
      simp only [Element.names, field?_overlay hupdate] at hnames ⊢
      split at hnames
      · next value wanted hvalue hwanted =>
        have hvalueOnce : value.KeysOnce := by
          cases item with
          | object fields => exact hitem.field _ (Object.mem_of_value? hvalue)
          | _ => cases hvalue
        rw [hvalue, hwanted, Option.some_or]
        cases Object.value? other key with
        | none => rfl
        | some sought => exact (Value.same_congr hvalueOnce hnames sought).symm
      · cases hnames
  · rfl

theorem layAll_cons (hitem : item.KeysOnce) (hupdate : (Value.object update).KeysOnce)
    (rest : List Object) : element.layAll key (update :: rest) item =
      element.layAll key rest (element.lay key update item) := by
  have hsame : element.names key (element.lay key update item) = element.names key item :=
    funext fun other => names_lay hitem hupdate other
  unfold Element.layAll
  rw [hsame]
  unfold Element.lay
  by_cases hnames : element.names key item update = true
  · rw [if_pos hnames, List.filter_cons_of_pos hnames, List.foldl_cons]
  · rw [if_neg hnames, List.filter_cons_of_neg hnames]

theorem overlaidByAll_layAll {updates : List Object}
    (hupdates : ∀ update ∈ updates, (Value.object update).KeysOnce) (item : Value) :
    OverlaidByAll (updates.filter (element.names key item)) item
      (element.layAll key updates item) := by
  have hfold : ∀ (chosen : List Object) (item : Value), chosen ⊆ updates → OverlaidByAll chosen item
      (chosen.foldl (fun item update => overlay update item) item) := by
    intro chosen
    induction chosen with
    | nil => exact fun _ _ => .nil
    | cons update rest ih =>
      intro item hsubset
      obtain ⟨hin, hrest⟩ := List.cons_subset.mp hsubset
      exact .cons (overlaid_overlay (hupdates update hin).keys item) (ih _ hrest)
  exact hfold _ item (List.filter_subset_self updates)

end Laying

/-! ### The batch -/

/-- **Lists whose items a key tells apart**: documents by their ids, each of which at most one has,
and objects by a declared field, whatever values it has. -/
inductive Element.Keyed (items : List Value) : Element → String → Prop
  | documents {target : String} (hdistinct : (items.filterMap DocId.ofIdOrObject?).Nodup) :
      Keyed items (.document target) idKey
  | objects {fields : Fields} {key : String} (hdeclared : Fields.declares fields key = true) :
      Keyed items (.object fields) key

/-- **A batch of updates is merged into a list**: each update names an item, and each item has the
updates laid over it that name it. -/
structure Element.Merges (element : Element) (key : String) (updates : List Object)
    (items result : List Value) : Prop where
  named : ∀ update ∈ updates, ∃ item ∈ items, element.names key item update = true
  laid : result = items.map (element.layAll key updates)

namespace Listing

section Batch
variable {path key target : String} {fields : Fields} {element : Element} {index : Nat}
  {update : Object} {updates : List Object} {items result : List Value}

/-- Of items with distinct keys the first one with a key is the only one. -/
theorem editFirst_eq_map {α κ : Type} [DecidableEq κ] {ownKey : α → Option κ} {items : List α}
    (hdistinct : (items.filterMap ownKey).Nodup) (wanted : κ) (edit : α → α) :
    editFirst (fun item => ownKey item == some wanted) edit items =
      items.map fun item => if ownKey item == some wanted then edit item else item := by
  induction items with
  | nil => rfl
  | cons head rest ih =>
    rw [editFirst, List.map_cons]
    by_cases hhead : ownKey head = some wanted
    · have hrest : ∀ item ∈ rest, ownKey item ≠ some wanted := by
        intro item hin hsame
        rw [List.filterMap_cons_some hhead] at hdistinct
        exact (List.nodup_cons.mp hdistinct).1 (List.mem_filterMap.mpr ⟨item, hin, hsame⟩)
      have hkept : rest.map (fun item => if ownKey item == some wanted then edit item else item) =
          rest := by
        refine (List.map_congr_left fun item hin => ?_).trans (List.map_id rest)
        simp [hrest item hin]
      have htest : (ownKey head == some wanted) = true := by simpa using hhead
      rw [if_pos htest, if_pos htest, hkept]
    · have hdistinct' : (rest.filterMap ownKey).Nodup :=
        hdistinct.sublist ((List.sublist_cons_self head rest).filterMap ownKey)
      simp [hhead, ih hdistinct']

theorem allFields_objects (updates : List Object) (index : Nat) :
    allFields path index (updates.map .object) = .ok updates := by
  induction updates generalizing index with
  | nil => rfl
  | cons update rest ih =>
    rw [List.map_cons, allFields, updateFields, ih]
    rfl

theorem withIds_ok_iff {pairs : List (DocId × Object)} :
    withIds path index updates = .ok pairs ↔
      updates = pairs.map (·.2) ∧ ∀ pair ∈ pairs, Object.id? pair.2 = some pair.1 := by
  induction updates generalizing index pairs with
  | nil =>
    rw [withIds]
    constructor
    · intro h
      cases h
      exact ⟨rfl, nofun⟩
    · rintro ⟨hpairs, -⟩
      rw [List.map_eq_nil_iff.mp hpairs.symm]
      rfl
  | cons update rest ih =>
    rw [withIds]
    cases hid : Object.id? update with
    | none =>
      refine ⟨nofun, fun ⟨hpairs, hids⟩ => ?_⟩
      cases pairs with
      | nil => cases hpairs
      | cons pair others =>
        obtain ⟨rfl, -⟩ := List.cons_eq_cons.mp hpairs
        rw [hids pair List.mem_cons_self] at hid
        cases hid
    | some id =>
      dsimp only
      rw [bind_ok_iff]
      constructor
      · rintro ⟨others, hothers, h⟩
        cases h
        obtain ⟨hrest, hids⟩ := ih.mp hothers
        exact ⟨by rw [hrest]; rfl, List.forall_mem_cons.mpr ⟨hid, hids⟩⟩
      · rintro ⟨hpairs, hids⟩
        cases pairs with
        | nil => cases hpairs
        | cons pair others =>
          obtain ⟨own, fields⟩ := pair
          obtain ⟨rfl, hrest⟩ := List.cons_eq_cons.mp hpairs
          obtain ⟨hown, hothers⟩ := List.forall_mem_cons.mp hids
          obtain rfl : id = own := Option.some.inj (hid.symm.trans hown)
          exact ⟨others, ih.mpr ⟨hrest, hothers⟩, rfl⟩

theorem exists_withIds (h : ∀ update ∈ updates, (Object.id? update).isSome) :
    ∃ pairs, withIds path index updates = .ok pairs := by
  simp only [withIds_ok_iff]
  induction updates with
  | nil => exact ⟨[], rfl, nofun⟩
  | cons update rest ih =>
    obtain ⟨hfirst, hrest⟩ := List.forall_mem_cons.mp h
    obtain ⟨id, hid⟩ := Option.isSome_iff_exists.mp hfirst
    obtain ⟨pairs, rfl, hids⟩ := ih hrest
    exact ⟨(id, update) :: pairs, rfl, List.forall_mem_cons.mpr ⟨hid, hids⟩⟩

theorem keysOnce_lay (hitems : ∀ item ∈ items, item.KeysOnce)
    (hupdate : (Value.object update).KeysOnce) :
    ∀ item ∈ items.map (element.lay key update), item.KeysOnce := by
  intro item hin
  obtain ⟨old, hold, rfl⟩ := List.mem_map.mp hin
  exact (hitems old hold).lay hupdate

/-- One update of a batch: it has to name an item, and the others go on with what it leaves. -/
theorem lay_ok_iff {rest : List Object} {next : List Value → Except Error (List Value)} {e : Error}
    (hitems : ∀ item ∈ items, item.KeysOnce) (hupdate : (Value.object update).KeysOnce)
    (hnext : next (items.map (element.lay key update)) = .ok result ↔
      element.Merges key rest (items.map (element.lay key update)) result) :
    (if items.any (fun item => element.names key item update) = true then
        next (items.map (element.lay key update)) else .error e) = .ok result ↔
      element.Merges key (update :: rest) items result := by
  have hnamed : (∀ other ∈ rest, ∃ item ∈ items.map (element.lay key update),
        element.names key item other = true) ↔
      ∀ other ∈ rest, ∃ item ∈ items, element.names key item other = true := by
    refine forall₂_congr fun other _ => ?_
    simp only [List.mem_map, exists_exists_and_eq_and]
    refine exists_congr fun item => and_congr_right fun hin => ?_
    rw [names_lay (hitems item hin) hupdate]
  have hlaid : (items.map (element.lay key update)).map (element.layAll key rest) =
      items.map (element.layAll key (update :: rest)) := by
    rw [List.map_map]
    exact List.map_congr_left fun item hin => (layAll_cons (hitems item hin) hupdate rest).symm
  split_ifs with hany
  · have hfirst : ∃ item ∈ items, element.names key item update = true := List.any_eq_true.mp hany
    rw [hnext]
    constructor
    · rintro ⟨hrest, hresult⟩
      exact ⟨List.forall_mem_cons.mpr ⟨hfirst, hnamed.mp hrest⟩, hresult.trans hlaid⟩
    · rintro ⟨hall, hresult⟩
      exact ⟨hnamed.mpr (List.forall_mem_cons.mp hall).2, hresult.trans hlaid.symm⟩
  · refine ⟨nofun, fun h => ?_⟩
    exact absurd (List.any_eq_true.mpr (h.named update List.mem_cons_self)) hany

/-- Without updates there is nothing to name and nothing changes. -/
theorem layNone_ok_iff : (pure items : Except Error (List Value)) = .ok result ↔
    element.Merges key [] items result := by
  have hnone : items.map (element.layAll key []) = items := List.map_id items
  constructor
  · intro h
    cases h
    exact ⟨nofun, hnone.symm⟩
  · rintro ⟨-, rfl⟩
    rw [hnone]
    rfl

theorem overlayObjects_cons {wanted : Value} (hwanted : Object.value? update key = some wanted)
    (rest : List Object) : overlayObjects path key index (update :: rest) items =
      if items.any (fun item => (Element.object fields).names key item update) = true then
        overlayObjects path key (index + 1) rest (items.map ((Element.object fields).lay key update))
      else .error (.notFound path (plainText wanted)) := by
  have htest : ∀ item : Value, ((item.field? key).map (Value.same · wanted)).getD false =
      (Element.object fields).names key item update := by
    intro item
    cases hvalue : item.field? key <;> simp [Element.names, hwanted, hvalue]
  rw [overlayObjects, hwanted]
  simp only [htest]
  rfl

theorem overlayObjects_ok_iff (hitems : ∀ item ∈ items, item.KeysOnce)
    (hupdates : ∀ update ∈ updates, (Value.object update).KeysOnce) :
    overlayObjects path key index updates items = .ok result ↔
      (Element.object fields).Merges key updates items result := by
  induction updates generalizing index items with
  | nil => exact layNone_ok_iff
  | cons update rest ih =>
    obtain ⟨hupdate, hrest⟩ := List.forall_mem_cons.mp hupdates
    cases hwanted : Object.value? update key with
    | none =>
      rw [overlayObjects, hwanted]
      refine ⟨nofun, fun h => ?_⟩
      obtain ⟨item, -, hnames⟩ := h.named update List.mem_cons_self
      simp [Element.names, hwanted] at hnames
    | some wanted =>
      rw [overlayObjects_cons hwanted]
      exact lay_ok_iff hitems hupdate (ih (keysOnce_lay hitems hupdate) hrest)

theorem ofIdOrObject?_lay (hupdate : (Value.object update).KeysOnce) (item : Value) :
    DocId.ofIdOrObject? ((Element.document target).lay idKey update item) =
      DocId.ofIdOrObject? item := by
  unfold Element.lay
  split_ifs with hnames
  · simp only [Element.names, Bool.and_eq_true, beq_iff_eq, Option.isSome_iff_exists] at hnames
    obtain ⟨⟨id, hid⟩, hsame⟩ := hnames
    rw [ofIdOrObject?_overlay hupdate hid, hsame, hid]
  · rfl

theorem overlayDocuments_cons {id : DocId} (hid : Object.id? update = some id)
    (hdistinct : (items.filterMap DocId.ofIdOrObject?).Nodup) (rest : List (DocId × Object)) :
    overlayDocuments target ((id, update) :: rest) items =
      if items.any (fun item => (Element.document target).names idKey item update) = true then
        overlayDocuments target rest (items.map ((Element.document target).lay idKey update))
      else .error (.notFound target id.label) := by
  have htest : ∀ item : Value, (DocId.ofIdOrObject? item == some id) =
      (Element.document target).names idKey item update := by
    intro item
    simp [Element.names, hid]
  rw [overlayDocuments, editFirst_eq_map hdistinct]
  simp only [htest]
  rfl

theorem overlayDocuments_ok_iff {pairs : List (DocId × Object)}
    (hids : ∀ pair ∈ pairs, Object.id? pair.2 = some pair.1)
    (hdistinct : (items.filterMap DocId.ofIdOrObject?).Nodup)
    (hitems : ∀ item ∈ items, item.KeysOnce)
    (hupdates : ∀ pair ∈ pairs, (Value.object pair.2).KeysOnce) :
    overlayDocuments target pairs items = .ok result ↔
      (Element.document target).Merges idKey (pairs.map (·.2)) items result := by
  induction pairs generalizing items with
  | nil => exact layNone_ok_iff
  | cons pair rest ih =>
    obtain ⟨id, update⟩ := pair
    obtain ⟨hid, hids⟩ := List.forall_mem_cons.mp hids
    obtain ⟨hupdate, hrest⟩ := List.forall_mem_cons.mp hupdates
    have hsame : (items.map ((Element.document target).lay idKey update)).filterMap
        DocId.ofIdOrObject? = items.filterMap DocId.ofIdOrObject? := by
      rw [List.filterMap_map]
      exact List.filterMap_congr fun item _ => ofIdOrObject?_lay hupdate item
    rw [overlayDocuments_cons hid hdistinct]
    exact lay_ok_iff hitems hupdate
      (ih hids (hsame ▸ hdistinct) (keysOnce_lay hitems hupdate) hrest)

theorem overlayWithIds_ok_iff (hdistinct : (items.filterMap DocId.ofIdOrObject?).Nodup)
    (hitems : ∀ item ∈ items, item.KeysOnce)
    (hupdates : ∀ update ∈ updates, (Value.object update).KeysOnce) :
    (withIds path index updates >>= fun pairs => overlayDocuments target pairs items) =
        .ok result ↔ (Element.document target).Merges idKey updates items result := by
  have hpairs : ∀ {pairs}, withIds path index updates = .ok pairs →
      (overlayDocuments target pairs items = .ok result ↔
        (Element.document target).Merges idKey updates items result) := by
    intro pairs hok
    obtain ⟨rfl, hids⟩ := withIds_ok_iff.mp hok
    exact overlayDocuments_ok_iff hids hdistinct hitems fun pair hin =>
      hupdates pair.2 (List.mem_map_of_mem hin)
  rw [bind_ok_iff]
  constructor
  · rintro ⟨pairs, hok, h⟩
    exact (hpairs hok).mp h
  · intro h
    have hids : ∀ update ∈ updates, (Object.id? update).isSome := by
      intro update hin
      obtain ⟨item, -, hnames⟩ := h.named update hin
      exact (Bool.and_eq_true_iff.mp hnames).1
    obtain ⟨pairs, hok⟩ := exists_withIds hids
    exact ⟨pairs, hok, (hpairs hok).mpr h⟩

/-- A batch as a whole. -/
theorem updateByKey_ok_iff (hkeyed : element.Keyed items key)
    (hitems : ∀ item ∈ items, item.KeysOnce)
    (hupdates : ∀ update ∈ updates, (Value.object update).KeysOnce) :
    updateByKey path element key items (updates.map .object) = .ok result ↔
      element.Merges key updates items result := by
  cases hkeyed with
  | documents hdistinct =>
    rw [updateByKey, if_neg (by simp), allFields_objects]
    exact overlayWithIds_ok_iff hdistinct hitems hupdates
  | objects hdeclared =>
    rw [updateByKey, hdeclared, allFields_objects]
    exact overlayObjects_ok_iff hitems hupdates

/-- **A batch of updates by a key** succeeds just if each of them names an item. Then the items stay
in their places, and each has the updates that name it laid over it in their order, so that of each
field the last of them counts. -/
theorem update_keyed (hkeyed : element.Keyed items key) (hitems : ∀ item ∈ items, item.KeysOnce)
    (hupdates : ∀ update ∈ updates, (Value.object update).KeysOnce) :
    ((∃ result, Listing.update path element (.key key) items (updates.map .object) = .ok result) ↔
      ∀ update ∈ updates, ∃ item ∈ items, element.names key item update = true) ∧
    ∀ result, Listing.update path element (.key key) items (updates.map .object) = .ok result →
      List.Forall₂ (fun item new =>
        let naming := updates.filter (element.names key item)
        OverlaidByAll naming item new ∧ ∀ name, new.field? name =
          (naming.reverse.findSome? fun update => Object.value? update name).or (item.field? name))
        items result := by
  have hok : ∀ {result}, Listing.update path element (.key key) items (updates.map .object) =
      .ok result ↔ element.Merges key updates items result :=
    updateByKey_ok_iff hkeyed hitems hupdates
  constructor
  · constructor
    · rintro ⟨result, h⟩
      exact (hok.mp h).named
    · intro h
      exact ⟨_, hok.mpr ⟨h, rfl⟩⟩
  · intro result h
    obtain ⟨-, rfl⟩ := hok.mp h
    refine List.forall₂_map_right_iff.mpr (List.forall₂_same.mpr fun item _ => ?_)
    have hlaid : OverlaidByAll (updates.filter (element.names key item)) item _ :=
      overlaidByAll_layAll hupdates item
    exact ⟨hlaid, hlaid.field?⟩

end Batch

/-! ### A number that is written in two ways -/

/-- The number one with a fraction. -/
def oneWithFraction : Value := .number (.double ⟨false, Nat.pow 2 52, 1022⟩)

/-- A stock in which the number of an article stands once with a fraction. -/
def stock : List Value :=
  [.object [("article", .ofNat 1), ("count", .ofNat 5)], .object [("article", .ofNat 2)],
    .object [("article", oneWithFraction)]]

/-- Two updates of the same article. -/
def deliveries : List Object :=
  [[("article", oneWithFraction), ("count", .ofNat 6), ("late", .bool true)],
    [("article", .ofNat 1), ("count", .ofNat 7)]]

/-- The stock after both updates. -/
def stocked : List Value :=
  [.object [("article", .ofNat 1), ("count", .ofNat 7), ("late", .bool true)],
    .object [("article", .ofNat 2)],
    .object [("article", .ofNat 1), ("count", .ofNat 7), ("late", .bool true)]]

set_option maxRecDepth 2000 in
/-- Both updates name both items of the article, however its number is written. -/
theorem deliveries_merged :
    let element : Element := .object [("article", .scalar .number {})]
    update "stock" element (.key "article") stock (deliveries.map .object) = .ok stocked ∧
      (∀ update ∈ deliveries, ∃ item ∈ stock, element.names "article" item update = true) ∧
      List.Forall₂ (fun item new =>
        let naming := deliveries.filter (element.names "article" item)
        OverlaidByAll naming item new ∧ ∀ name, new.field? name =
          (naming.reverse.findSome? fun update => Object.value? update name).or (item.field? name))
        stock stocked := by
  intro element
  have hstocked : update "stock" element (.key "article") stock (deliveries.map .object) =
      .ok stocked := rfl
  have hone : oneWithFraction.KeysOnce := .number
  have hnat : ∀ n, (Value.ofNat n).KeysOnce := fun _ => .number
  have hbool : ∀ b, (Value.bool b).KeysOnce := fun _ => .bool
  have hkeyed : element.Keyed stock "article" := .objects rfl
  have hstock : ∀ item ∈ stock, item.KeysOnce := by
    simp [stock, Value.keysOnce_object_iff, Object.keys, hone, hnat]
  have hdeliveries : ∀ update ∈ deliveries, (Value.object update).KeysOnce := by
    intro update hin
    simp only [deliveries, List.mem_cons, List.not_mem_nil, or_false] at hin
    rcases hin with rfl | rfl <;>
      simp [Value.keysOnce_object_iff, Object.keys, hone, hnat, hbool]
  exact ⟨hstocked, (update_keyed hkeyed hstock hdeliveries).1.mp ⟨stocked, hstocked⟩,
    (update_keyed hkeyed hstock hdeliveries).2 stocked hstocked⟩

end Listing

end DocumentDb
