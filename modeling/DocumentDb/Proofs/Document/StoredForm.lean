import DocumentDb.Proofs.Document.Collapsing
import DocumentDb.Proofs.Document.Conformance
import Mathlib.Data.List.Perm.Subperm

/-!
# The stored form of documents

Ordering a document changes no value of it and brings the id to its beginning, and stamping it sets
the times that its collection keeps. So a document built from fields that fit conforms to its
schema, and it still does after a change.
-/

namespace DocumentDb

/-! ### Order -/

namespace Tree

variable (tree : Tree) (document : Document)

theorem value?_pick (keys : List String) (key : String) :
    Object.value? (pick document keys) key =
      if key ∈ keys then Object.value? document key else none := by
  induction keys with
  | nil => simp [pick, Object.value?]
  | cons first rest ih =>
    unfold pick at ih ⊢
    cases hfirst : Object.value? document first with
    | none =>
      simp only [List.filterMap_cons, hfirst, Option.map_none, ih, List.mem_cons]
      by_cases hkey : key = first
      · simp [hkey, hfirst]
      · simp [hkey]
    | some value =>
      simp only [List.filterMap_cons, hfirst, Option.map_some, Object.value?, ih, List.mem_cons]
      by_cases hkey : first = key
      · simp [← hkey, hfirst]
      · simp [hkey, Ne.symm hkey]

theorem value?_of_mem_pick {keys : List String} :
    ∀ field ∈ pick document keys, Object.value? document field.1 = some field.2 := by
  intro field hfield
  unfold pick at hfield
  obtain ⟨key, _, hkey⟩ := List.mem_filterMap.mp hfield
  obtain ⟨value, hvalue, rfl⟩ := Option.map_eq_some_iff.mp hkey
  exact hvalue

theorem declares_iff {tree : Tree} {key : String} :
    tree.declares key = true ↔ key ∈ tree.keys := by
  have hfields : tree.fields.declares key = true ↔ key ∈ tree.fields.map (·.1) :=
    Fields.declares_iff
  unfold Tree.declares Tree.keys
  rw [Bool.or_eq_true, decide_eq_true_eq, hfields, List.mem_cons]

/-- **Ordering a document changes no value.** -/
theorem value?_order (key : String) :
    Object.value? (tree.order document) key = Object.value? document key := by
  unfold Tree.order
  rw [Object.value?_putAll (value?_of_mem_pick document)]
  split_ifs with htimes
  · rfl
  · have hpicked := value?_pick document [createdKey, updatedKey] key
    rw [Object.value?_eq_none_iff.mpr htimes] at hpicked
    rw [Object.value?_append, value?_pick, Object.value?_filter document
      (fun name => !tree.declares name && name ≠ createdKey && name ≠ updatedKey)]
    by_cases hdeclared : key ∈ tree.keys
    · rw [if_pos hdeclared]
      split_ifs <;> simp
    · have hnot : tree.declares key = false := by
        rwa [← Bool.not_eq_true, declares_iff]
      rw [if_neg hdeclared, Option.none_or]
      by_cases htime : key ∈ [createdKey, updatedKey]
      · rw [if_pos htime] at hpicked
        rw [← hpicked]
        split_ifs <;> rfl
      · simp only [List.mem_cons, List.not_mem_nil, or_false, not_or] at htime
        simp [hnot, htime.1, htime.2]

/-- **Ordering brings the id to the beginning.** -/
theorem head?_order {value : Value} (h : Object.value? document idKey = some value) :
    (Object.keys (tree.order document)).head? = some idKey := by
  unfold Tree.order
  refine Object.head?_putAll _ ?_
  simp [pick, Tree.keys, h, Object.keys]

theorem keys_pick {keys : List String} :
    (Object.keys (pick document keys)).Sublist keys := by
  induction keys with
  | nil => exact List.Sublist.slnil
  | cons first rest ih =>
    unfold pick Object.keys at ih ⊢
    cases hfirst : Object.value? document first with
    | none => simpa [hfirst] using ih.cons first
    | some value => simpa [hfirst] using ih.cons_cons first

theorem mem_keys_of_mem_pick {keys : List String} {field : String × Value}
    (h : field ∈ pick document keys) : field.1 ∈ keys :=
  (keys_pick document).subset (List.mem_map_of_mem h)

/-- Picked fields are among those fields of the document that have the same kind of keys. -/
theorem pick_subperm {keys : List String} (honce : keys.Nodup) {picked : Object}
    (hpicked : picked.Sublist (pick document keys)) {keep : String × Value → Bool}
    (hkeep : ∀ field ∈ picked, keep field = true) : picked.Subperm (document.filter keep) := by
  have honce : (Object.keys picked).Nodup :=
    (honce.sublist (keys_pick document)).sublist (hpicked.map _)
  refine List.subperm_of_subset (List.Nodup.of_map _ honce) fun field hin => ?_
  have hvalue : Object.value? document field.1 = some field.2 :=
    value?_of_mem_pick document field (hpicked.subset hin)
  exact List.mem_filter.mpr ⟨Object.mem_of_value? hvalue, hkeep field hin⟩

theorem keys_nodup {tree : Tree} (h : tree.Proper) : tree.keys.Nodup :=
  List.nodup_cons.mpr ⟨h.noId, h.fields.names⟩

/-- The fields of a document that are neither declared nor times. -/
def others : Object :=
  document.filter fun field =>
    !tree.declares field.1 && field.1 ≠ createdKey && field.1 ≠ updatedKey

/-- The times come at the end, unless they are declared. -/
theorem order_eq : tree.order document =
    pick document tree.keys ++ others tree document ++
      (pick document [createdKey, updatedKey]).filter fun field => !tree.declares field.1 := by
  have hnames : ∀ field ∈ pick document [createdKey, updatedKey],
      (field.1 ∈ Object.keys (pick document tree.keys ++ others tree document) ↔
        tree.declares field.1 = true) ∧
      (field.1 ∈ Object.keys (pick document tree.keys ++ others tree document) →
        Object.value? (pick document tree.keys ++ others tree document) field.1 =
          some field.2) := by
    intro field hin
    have hvalue : Object.value? document field.1 = some field.2 :=
      value?_of_mem_pick document field hin
    have hother : Object.value? (others tree document) field.1 = none := by
      have htime := mem_keys_of_mem_pick document hin
      unfold others
      rw [Object.value?_filter document
        fun key => !tree.declares key && key ≠ createdKey && key ≠ updatedKey, if_neg]
      grind
    have hboth : Object.value? (pick document tree.keys ++ others tree document) field.1 =
        if field.1 ∈ tree.keys then some field.2 else none := by
      rw [Object.value?_append, hother, Option.or_none, value?_pick, hvalue]
    have hiff : field.1 ∈ Object.keys (pick document tree.keys ++ others tree document) ↔
        field.1 ∈ tree.keys := by
      rw [← not_iff_not, ← Object.value?_eq_none_iff, hboth]
      simp
    refine ⟨hiff.trans declares_iff.symm, fun hkey => ?_⟩
    rw [hboth, if_pos (hiff.mp hkey)]
  have honce : (Object.keys (pick document [createdKey, updatedKey])).Nodup :=
    List.Nodup.sublist (keys_pick document) (by decide)
  refine (Object.putAll_eq_append honce fun field hin => (hnames field hin).2).trans ?_
  refine congrArg _ (List.filter_congr fun field hin => ?_)
  rw [Bool.eq_iff_iff, Bool.not_eq_true', Bool.not_eq_true', ← Bool.not_eq_true, ← Bool.not_eq_true,
    List.contains_iff_mem, (hnames field hin).1]

/-- **Ordering a document only moves its fields**; of a key that stands twice, one may get lost. -/
theorem order_subperm {tree : Tree} (hproper : tree.Proper) :
    (tree.order document).Subperm document := by
  have hdeclared : (pick document tree.keys).Subperm
      (document.filter fun field => tree.declares field.1) :=
    pick_subperm document (keys_nodup hproper) (List.Sublist.refl _) fun field hin =>
      declares_iff.mpr (mem_keys_of_mem_pick document hin)
  have htimes : ((pick document [createdKey, updatedKey]).filter fun field =>
      !tree.declares field.1).Subperm ((document.filter fun field => !tree.declares field.1).filter
        fun field => !(field.1 ≠ createdKey && field.1 ≠ updatedKey)) := by
    rw [List.filter_filter]
    refine pick_subperm document (by decide) List.filter_sublist fun field hin => ?_
    have htime := mem_keys_of_mem_pick document (List.mem_of_mem_filter hin)
    have hfree := List.of_mem_filter hin
    grind
  have hothers : others tree document = (document.filter fun field =>
      !tree.declares field.1).filter fun field =>
        field.1 ≠ createdKey && field.1 ≠ updatedKey := by
    rw [List.filter_filter]
    refine List.filter_congr fun field _ => ?_
    grind
  rw [order_eq, List.append_assoc, hothers]
  have hfree := (List.Subperm.refl _).append htimes |>.trans
    (List.filter_append_perm _ (document.filter fun field => !tree.declares field.1)).subperm
  exact (hdeclared.append hfree).trans (List.filter_append_perm _ document).subperm

end Tree

/-! ### Times -/

section Times
variable {registry : Registry} {known : String → DocId → Prop} {tree : Tree} {document : Document}

theorem idKey_ne_times : idKey ≠ createdKey ∧ idKey ≠ updatedKey := by decide

theorem created_mem_managed (h : tree.settings.createdAt = true) :
    createdKey ∈ tree.managedKeys := by
  simp [Tree.managedKeys, h]

theorem updated_mem_managed (h : tree.settings.updatedAt = true) :
    updatedKey ∈ tree.managedKeys := by
  simp [Tree.managedKeys, h]

/-- The keys that a document keeps by itself are those of its id and of its times. -/
theorem mem_managedKeys {key : String} (h : key ∈ tree.managedKeys) :
    key = idKey ∨ (key = createdKey ∧ tree.settings.createdAt = true) ∨
      (key = updatedKey ∧ tree.settings.updatedAt = true) := by
  unfold Tree.managedKeys at h
  rcases List.mem_cons.mp h with rfl | h
  · exact Or.inl rfl
  · rcases List.mem_append.mp h with h | h
    · split_ifs at h with hset
      · exact Or.inr (Or.inl ⟨List.mem_singleton.mp h, hset⟩)
      · cases h
    · split_ifs at h with hset
      · exact Or.inr (Or.inr ⟨List.mem_singleton.mp h, hset⟩)
      · cases h

/-- The document with a time set if a setting says so. -/
theorem value?_stamped (flag : Bool) (document : Document) (time : String) (value : Value)
    (key : String) :
    Object.value? (if flag then document.put time value else document) key =
      if flag = true ∧ time = key then some value else Object.value? document key := by
  cases flag
  · simp
  · simp [Object.value?_put]

theorem head?_stamped {flag : Bool} {document : Document} {time : String} {value : Value}
    (h : (Object.keys document).head? = some idKey) :
    (Object.keys (if flag then document.put time value else document)).head? = some idKey := by
  split_ifs
  · exact Object.head?_putAll [(time, value)] h
  · exact h

theorem FieldsFit.stamped {strict : Bool} {reserved : List String} {fields : Fields} {flag : Bool}
    {time : String} {value : Value} (hreserved : flag = true → time ∈ reserved)
    (h : FieldsFit registry known strict reserved fields document) :
    FieldsFit registry known strict reserved fields
      (if flag then document.put time value else document) := by
  split_ifs with hset
  · exact h.put_other (Or.inr (hreserved hset)) fun _ => hreserved hset
  · exact h

/-- What stamping a new document does to its values. -/
theorem value?_stampNew (now : Instant) (key : String) :
    Object.value? (Build.stampNew tree now document) key =
      if tree.settings.updatedAt = true ∧ updatedKey = key then some (.string now.text)
      else if tree.settings.createdAt = true ∧ createdKey = key then some (.string now.text)
      else Object.value? document key := by
  unfold Build.stampNew
  rw [value?_stamped, value?_stamped]

/-- A new document has the time under the keys of the times that it keeps. -/
theorem value?_stampNew_time (now : Instant) {key : String} (hkey : key ∈ tree.managedKeys)
    (hid : key ≠ idKey) :
    Object.value? (Build.stampNew tree now document) key = some (.string now.text) := by
  rw [value?_stampNew]
  rcases mem_managedKeys hkey with rfl | ⟨rfl, hset⟩ | ⟨rfl, hset⟩
  · exact absurd rfl hid
  · rw [if_pos (And.intro hset rfl), ite_self]
  · rw [if_pos ⟨hset, rfl⟩]

/-- What stamping a changed document does to its values. -/
theorem value?_stampChanged (now : Instant) (key : String) :
    Object.value? (Build.stampChanged tree now document) key =
      if tree.settings.updatedAt = true ∧ updatedKey = key then some (.string now.text)
      else Object.value? document key := by
  unfold Build.stampChanged
  rw [value?_stamped]

/-- A new document has the id that it was given. -/
theorem id?_new (now : Instant) {id : DocId} {fields : Object} (hadmits : tree.id.Admits id)
    (hrule : tree.id.Proper) :
    (Build.stampNew tree now ((idKey, id.toValue) :: fields)).id? = some id := by
  rw [Object.id?_eq_some_iff, value?_stampNew]
  have := idKey_ne_times
  refine ⟨?_, hadmits.valid hrule⟩
  rw [if_neg (fun h => this.2 h.2.symm), if_neg (fun h => this.1 h.2.symm)]
  simp [Object.value?]

/-- **A new document conforms.** -/
theorem conforms_new (now : Instant) {id : DocId} {fields : Object} (hadmits : tree.id.Admits id)
    (hrule : tree.id.Proper) (hnoId : idKey ∉ tree.fields.names)
    (hfields : FieldsFit registry known tree.settings.strict [] tree.fields fields) :
    Conforms registry known tree
      (Build.stampNew tree now ((idKey, id.toValue) :: fields)) ∧
    (Build.stampNew tree now ((idKey, id.toValue) :: fields)).id? = some id := by
  have hid : Object.id? (Build.stampNew tree now ((idKey, id.toValue) :: fields)) = some id :=
    id?_new now hadmits hrule
  refine ⟨⟨?_, ⟨id, hid, hadmits⟩, ?_, ?_⟩, hid⟩
  · exact head?_stamped (head?_stamped rfl)
  · intro key hkey hne value hvalue
    rw [value?_stampNew] at hvalue
    rcases mem_managedKeys hkey with heq | ⟨heq, hset⟩ | ⟨heq, hset⟩
    · exact absurd heq hne
    · rw [if_pos (⟨hset, heq.symm⟩ : _ ∧ createdKey = key)] at hvalue
      split_ifs at hvalue <;> exact ⟨_, (Option.some.inj hvalue).symm⟩
    · rw [if_pos ⟨hset, heq.symm⟩] at hvalue
      exact ⟨_, (Option.some.inj hvalue).symm⟩
  · refine FieldsFit.stamped updated_mem_managed
      (FieldsFit.stamped created_mem_managed ⟨?_, ?_, ?_⟩)
    · intro field hfield _ value hvalue
      have hne : idKey ≠ field.1 := fun heq => hnoId (heq ▸ List.mem_map_of_mem hfield)
      rw [Object.value?, if_neg hne] at hvalue
      exact hfields.present field hfield List.not_mem_nil value hvalue
    · intro field hfield _ hnone
      have hne : idKey ≠ field.1 := fun heq => hnoId (heq ▸ List.mem_map_of_mem hfield)
      rw [Object.value?, if_neg hne] at hnone
      exact hfields.absent field hfield List.not_mem_nil hnone
    · intro hstrict key hkey
      rcases List.mem_cons.mp hkey with rfl | hin
      · exact Or.inr List.mem_cons_self
      · rcases hfields.closed hstrict key hin with h | h
        · exact Or.inl h
        · cases h

/-- A changed document has the id that it had. -/
theorem id?_changed (now : Instant) {existing merged : Document} {id : DocId}
    (hid : existing.id? = some id)
    (hkept : Object.value? merged idKey = Object.value? existing idKey) :
    (Build.stampChanged tree now merged).id? = some id := by
  rw [Object.id?_eq_some_iff, value?_stampChanged, if_neg (fun h => idKey_ne_times.2 h.2.symm),
    hkept]
  exact Object.id?_eq_some_iff.mp hid

/-- Ordering a document does not change its id. -/
theorem id?_order (tree : Tree) (document : Document) :
    (tree.order document).id? = document.id? := by
  unfold Object.id?
  rw [Tree.value?_order]

/-- **A changed document conforms**, and it keeps its id. -/
theorem conforms_changed (now : Instant) {existing merged : Document} {id : DocId}
    (hexisting : Conforms registry known tree existing) (hid : existing.id? = some id)
    (hkept : ∀ key ∈ tree.managedKeys, Object.value? merged key = Object.value? existing key)
    (hmerged : FieldsFit registry known tree.settings.strict tree.managedKeys tree.fields merged) :
    Conforms registry known tree (tree.order (Build.stampChanged tree now merged)) ∧
    (tree.order (Build.stampChanged tree now merged)).id? = some id := by
  have hstamped : Object.id? (Build.stampChanged tree now merged) = some id :=
    id?_changed now hid (hkept _ List.mem_cons_self)
  have hvalue := Object.value?_id hstamped
  have hid' := (id?_order tree (Build.stampChanged tree now merged)).trans hstamped
  have hadmits : tree.id.Admits id := by
    obtain ⟨own, hown, hadmits⟩ := hexisting.id
    rw [hid] at hown
    cases hown
    exact hadmits
  refine ⟨⟨Tree.head?_order tree _ hvalue, ⟨id, hid', hadmits⟩, ?_, ?_⟩, hid'⟩
  · intro key hkey hne value hstored
    rw [Tree.value?_order, value?_stampChanged] at hstored
    split_ifs at hstored
    · exact ⟨_, (Option.some.inj hstored).symm⟩
    · rw [hkept key hkey] at hstored
      exact hexisting.times key hkey hne value hstored
  · exact (hmerged.stamped updated_mem_managed).congr (Tree.value?_order tree _)

end Times

end DocumentDb
