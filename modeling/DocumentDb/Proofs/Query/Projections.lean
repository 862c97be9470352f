import DocumentDb.Proofs.Document.Paths
import DocumentDb.Proofs.Json.Equality
import DocumentDb.Proofs.Text.Segments
import DocumentDb.Query.Pipeline

/-!
# Parts of documents

A query that includes fields and one that excludes them look at the fields of a document one by one,
and descend into nested objects with the paths that lead there. What the two make of one field is
said once (`Object.Parted`); from this it follows for every value at any depth.

* `projections_complementary`: the two projections to the same paths share out the values of a
  document between them, and joined they are the document.
-/

namespace DocumentDb

namespace Object

/-! ### Paths and keys -/

/-- **Paths address** the keys that lead to a value: one of them leads to the value or to an object
around it. -/
def Addressed (paths keys : List String) : Prop := ∃ path ∈ paths, Text.splitAt '.' path <+: keys

instance (paths keys : List String) : Decidable (Addressed paths keys) :=
  decidable_of_iff (paths.any (fun path => Text.splitAt '.' path <+: keys) = true) <| by
    simp only [List.any_eq_true, decide_eq_true_eq, Addressed]

/-- There is no point in the keys of an object and of those nested in it. -/
inductive PlainKeys : Object → Prop
  | mk {fields : Object} (hkeys : ∀ key ∈ keys fields, '.' ∉ key.toList)
    (hinner : ∀ key inner, value? fields key = some (.object inner) → PlainKeys inner) :
    PlainKeys fields

theorem PlainKeys.nil : PlainKeys [] := .mk (List.forall_mem_nil _) (by rintro _ _ ⟨⟩)

theorem PlainKeys.cons {key : String} {value : Value} {rest : Object} (hkey : '.' ∉ key.toList)
    (hvalue : ∀ inner, value = .object inner → PlainKeys inner) (hrest : PlainKeys rest) :
    PlainKeys ((key, value) :: rest) := by
  obtain ⟨hkeys, hinner⟩ := hrest
  refine .mk (List.forall_mem_cons.mpr ⟨hkey, hkeys⟩) fun name inner h => ?_
  rw [value?] at h
  split_ifs at h
  · exact hvalue inner (Option.some.inj h)
  · exact hinner name inner h

section Paths
variable {paths rest : List String} {key path : String}

theorem mem_pathsBelow : path ∈ pathsBelow key paths ↔ key ++ "." ++ path ∈ paths := by
  rw [pathsBelow, List.mem_filterMap]
  constructor
  · rintro ⟨whole, hin, hwhole⟩
    rwa [← Text.afterStart?_eq_some_iff.mp hwhole]
  · intro hin
    exact ⟨_, hin, Text.afterStart?_eq_some_iff.mpr rfl⟩

theorem not_addressed_nil : ¬ Addressed paths [] := by
  rintro ⟨path, -, hbegins⟩
  exact Text.splitAt_ne_nil '.' path (List.prefix_nil.mp hbegins)

/-- A value is addressed by the name of its first key, or by a path below this key. -/
theorem addressed_cons (hkey : '.' ∉ key.toList) :
    Addressed paths (key :: rest) ↔ key ∈ paths ∨ Addressed (pathsBelow key paths) rest := by
  have hbelow (path : String) :
      Text.splitAt '.' (key ++ "." ++ path) = key :: Text.splitAt '.' path :=
    Text.splitAt_append hkey path
  constructor
  · rintro ⟨path, hin, hbegins⟩
    rcases Text.splitAt_cases '.' path with ⟨-, hsplit⟩ | ⟨name, behind, hname, rfl, hsplit⟩
    · rw [hsplit, List.cons_prefix_cons] at hbegins
      exact .inl (hbegins.1 ▸ hin)
    · rw [hsplit, List.cons_prefix_cons] at hbegins
      obtain ⟨rfl, hbehind⟩ := hbegins
      exact .inr ⟨behind, mem_pathsBelow.mpr hin, hbehind⟩
  · rintro (hin | ⟨path, hin, hbegins⟩)
    · exact ⟨key, hin, by rw [Text.splitAt_name hkey]; exact List.prefix_append [key] rest⟩
    · refine ⟨_, mem_pathsBelow.mp hin, ?_⟩
      rw [hbelow, List.cons_prefix_cons]
      exact ⟨rfl, hbegins⟩

end Paths

/-! ### What becomes of one field -/

/-- **A field is parted**: what an including and an excluding projection make of the value of a key.
The id goes to both, a field that a path names to the first only, and an object with paths below its
key is divided. -/
inductive Parted (paths : List String) (top : Bool) (key : String) :
    Value → Option Value → Option Value → Prop
  | id {value : Value} (hid : isRootId top key = true) (hplain : ∀ inner, value ≠ .object inner) :
    Parted paths top key value (some value) (some value)
  | named {value : Value} (hid : isRootId top key = false) (hnamed : key ∈ paths) :
    Parted paths top key value (some value) none
  | divided {inner : Object} (hid : isRootId top key = false) (hnamed : key ∉ paths)
    (hbelow : pathsBelow key paths ≠ []) :
    Parted paths top key (.object inner)
      (some (.object (includePaths (pathsBelow key paths) false inner)))
      (some (.object (excludePaths (pathsBelow key paths) false inner)))
  | other {value : Value} (hid : isRootId top key = false) (hnamed : key ∉ paths)
    (hother : pathsBelow key paths = [] ∨ ∀ inner, value ≠ .object inner) :
    Parted paths top key value none (some value)

section Fields
variable {paths : List String} {top : Bool} {fields : Object} {key : String} {value : Value}

theorem value?_include (honce : (keys fields).Nodup) :
    value? (includePaths paths top fields) key =
      (value? fields key).bind (includeField paths top key) := by
  induction fields with
  | nil => rfl
  | cons field rest ih =>
    obtain ⟨name, first⟩ := field
    obtain ⟨hfresh, hrest⟩ := List.nodup_cons.mp honce
    rw [includePaths, value?]
    by_cases hname : name = key
    · subst hname
      have hnone : value? (includePaths paths top rest) name = none := by
        rw [ih hrest, value?_eq_none_iff.mpr hfresh]
        rfl
      rw [if_pos rfl, Option.bind_some]
      cases includeField paths top name first with
      | none => exact hnone
      | some kept => exact if_pos rfl
    · rw [if_neg hname, ← ih hrest]
      cases includeField paths top name first with
      | none => rfl
      | some kept => exact if_neg hname

theorem value?_exclude : value? (excludePaths paths top fields) key =
    if !isRootId top key && !key.contains '.' && paths.contains key then none
    else (value? fields key).map (excludeInside paths key) := by
  induction fields with
  | nil => simp [excludePaths, value?]
  | cons field rest ih =>
    obtain ⟨name, first⟩ := field
    rw [excludePaths]
    by_cases hname : name = key
    · subst hname
      split_ifs with hdropped
      · rw [ih, if_pos hdropped]
      · simp [value?]
    · have hlater : value? ((name, first) :: rest) key = value? rest key := if_neg hname
      rw [hlater, ← ih]
      split_ifs
      · rfl
      · exact if_neg hname

theorem parted (honce : (keys fields).Nodup) (hkey : '.' ∉ key.toList) (paths : List String)
    (hid : top = true → ∀ inner, value? fields idKey ≠ some (.object inner))
    (hvalue : value? fields key = some value) :
    Parted paths top key value (value? (includePaths paths top fields) key)
      (value? (excludePaths paths top fields) key) := by
  have hpoint : key.contains '.' = false := by simpa using hkey
  have hinside (hplain : pathsBelow key paths = [] ∨ ∀ inner, value ≠ .object inner) :
      excludeInside paths key value = value := by
    cases value with
    | object inner => simp [excludeInside, hplain.resolve_right fun h => h inner rfl]
    | _ => rfl
  rw [value?_include honce, value?_exclude, hvalue, Option.bind_some, Option.map_some, hpoint]
  cases hroot : isRootId top key with
  | true =>
    have hkept : includeField paths top key value = some value := by
      cases value <;> simp [includeField, hroot]
    have hplain : ∀ inner, value ≠ .object inner := by
      rintro inner rfl
      obtain ⟨htop, rfl⟩ : top = true ∧ key = idKey := by simpa [isRootId] using hroot
      exact hid htop inner hvalue
    rw [hkept, hinside (.inr hplain)]
    exact .id hroot hplain
  | false =>
    by_cases hnamed : key ∈ paths
    · have hkept : includeField paths top key value = some value := by
        cases value <;> simp [includeField, hnamed]
      rw [hkept, if_pos (by simpa using hnamed)]
      exact .named hroot hnamed
    · rw [if_neg (by simpa using hnamed)]
      by_cases hplain : pathsBelow key paths = [] ∨ ∀ inner, value ≠ .object inner
      · have hkept : includeField paths top key value = none := by
          cases value with
          | object inner =>
            simp [includeField, hroot, hnamed, hplain.resolve_right fun h => h inner rfl]
          | _ => simp [includeField, hroot, hnamed]
        rw [hkept, hinside hplain]
        exact .other hroot hnamed hplain
      · obtain ⟨hbelow, hnested⟩ := not_or.mp hplain
        push Not at hnested
        obtain ⟨inner, rfl⟩ := hnested
        have hempty : (pathsBelow key paths).isEmpty = false := by simpa using hbelow
        rw [includeField, excludeInside]
        simp only [hroot, hempty, List.contains_eq_mem, hnamed, Bool.false_eq_true,
          decide_false, Bool.or_false, ↓reduceIte]
        exact .divided hroot hnamed hbelow

/-- Both projections keep the id of a document. -/
theorem value?_id_parted (honce : (keys fields).Nodup)
    (hid : ∀ inner, value? fields idKey ≠ some (.object inner)) (paths : List String) :
    value? (includePaths paths true fields) idKey = value? fields idKey ∧
      value? (excludePaths paths true fields) idKey = value? fields idKey := by
  cases hvalue : value? fields idKey with
  | none =>
    rw [value?_include honce, value?_exclude, hvalue, Option.bind_none, Option.map_none, ite_self]
    exact ⟨rfl, rfl⟩
  | some value =>
    have hparted := parted honce (by decide) paths (fun _ : true = true => hid) hvalue
    generalize value? (includePaths paths true fields) idKey = kept at hparted ⊢
    generalize value? (excludePaths paths true fields) idKey = left at hparted ⊢
    cases hparted with
    | id => exact ⟨rfl, rfl⟩
    | named hroot | divided hroot | other hroot => cases hroot

end Fields

/-! ### Values at any depth -/

theorem follow?_absent {object : Object} {name : String} {rest : List String}
    (h : value? object name = none) : object.follow? (name :: rest) = none := by
  have hempty : value? object name = value? [] name := h
  rw [follow?_congr hempty, follow?_empty]

/-- **What both projections keep of a value** that is no object, behind any keys. -/
theorem follow?_parted {fields : Object} (hplain : PlainKeys fields)
    (honce : (Value.object fields).KeysOnce) (paths : List String) (top : Bool)
    (hid : top = true → ∀ inner, value? fields idKey ≠ some (.object inner)) {value : Value}
    (hleaf : ∀ inner, value ≠ .object inner) (keys : List String) :
    ((includePaths paths top fields).follow? keys = some value ↔
      fields.follow? keys = some value ∧ (top = true ∧ keys = [idKey] ∨ Addressed paths keys)) ∧
    ((excludePaths paths top fields).follow? keys = some value ↔
      fields.follow? keys = some value ∧
        (top = true ∧ keys = [idKey] ∨ ¬ Addressed paths keys)) := by
  induction hplain generalizing paths top keys with
  | @mk fields hkeys hinner ih =>
    cases keys with
    | nil => simp [follow?]
    | cons key rest =>
      have hroot : top = true ∧ key :: rest = [idKey] ↔ isRootId top key = true ∧ rest = [] := by
        simp [isRootId, and_assoc]
      cases hvalue : value? fields key with
      | none =>
        have hkept : value? (includePaths paths top fields) key = none := by
          rw [value?_include honce.keys, hvalue, Option.bind_none]
        have hleft : value? (excludePaths paths top fields) key = none := by
          rw [value?_exclude, hvalue, Option.map_none, ite_self]
        simp [follow?_absent hkept, follow?_absent hleft, follow?_absent hvalue]
      | some here =>
        have hkey := hkeys key (mem_keys_of_value? hvalue)
        have hparted := parted honce.keys hkey paths hid hvalue
        rw [hroot, addressed_cons hkey]
        cases rest with
        | nil =>
          rw [follow?, follow?, follow?, hvalue]
          generalize value? (includePaths paths top fields) key = kept at hparted ⊢
          generalize value? (excludePaths paths top fields) key = left at hparted ⊢
          cases hparted with
          | id hid hplain => simp [hid]
          | named hid hnamed => simp [hid, hnamed]
          | divided hid hnamed hbelow => simp [Ne.symm (hleaf _)]
          | other hid hnamed hother => simp [hid, hnamed, not_addressed_nil]
        | cons second rest =>
          have hobject (inner : Object) : fieldsOf (some (.object inner)) = inner := rfl
          have hnothing : fieldsOf none = [] := rfl
          have hothers (hplain : ∀ inner, here ≠ .object inner) : fieldsOf (some here) = [] := by
            cases here with
            | object inner => exact absurd rfl (hplain inner)
            | _ => rfl
          rw [follow?_fieldsOf, follow?_fieldsOf, follow?_fieldsOf, hvalue]
          generalize value? (includePaths paths top fields) key = kept at hparted ⊢
          generalize value? (excludePaths paths top fields) key = left at hparted ⊢
          cases hparted with
          | id hid hplain => simp [hothers hplain, follow?_empty]
          | named hid hnamed => simp [hnamed, hnothing, follow?_empty]
          | @divided inner hid hnamed hbelow =>
            have hnext := ih key inner hvalue (honce.field _ (mem_of_value? hvalue))
              (pathsBelow key paths) false (absurd · Bool.false_ne_true) (second :: rest)
            simpa [hobject, hnamed] using hnext
          | other hid hnamed hother =>
            rcases hother with hbelow | hplain
            · simp [hnamed, hbelow, Addressed, hnothing, follow?_empty]
            · simp [hothers hplain, hnothing, follow?_empty]

/-! ### Ordered parts -/

/-- **An object is a part of another one**: fields are left out, at any depth, and what is there
stands in the same order. -/
inductive Part : Object → Object → Prop
  | nil : Part [] []
  | drop {part whole : Object} {field : String × Value} (h : Part part whole) :
    Part part (field :: whole)
  | keep {part whole : Object} {field : String × Value} (h : Part part whole) :
    Part (field :: part) (field :: whole)
  | inside {part whole inner outer : Object} {key : String} (hinner : Part inner outer)
    (h : Part part whole) : Part ((key, .object inner) :: part) ((key, .object outer) :: whole)

theorem Part.keys_sublist {part whole : Object} (h : Part part whole) :
    (keys part).Sublist (keys whole) := by
  induction h with
  | nil => exact .slnil
  | drop _ ih => exact ih.cons _
  | keep _ ih => exact ih.cons_cons _
  | inside _ _ _ ih => exact ih.cons_cons _

section Parts
variable {part whole : Object} {key : String} {value : Value}

/-- **One field of a part**: it is left out, it is there, or a part of its object is there. -/
inductive FieldPart (value : Value) : Option Value → Prop
  | absent : FieldPart value none
  | present : FieldPart value (some value)
  | inside {inner outer : Object} (hvalue : value = .object outer) (h : Part inner outer) :
    FieldPart value (some (.object inner))

theorem Part.cons (h : Part part whole) : ∀ {kept? : Option Value}, FieldPart value kept? →
    Part (match kept? with
      | some kept => (key, kept) :: part
      | none => part) ((key, value) :: whole) := by
  intro kept? hfield
  cases hfield with
  | absent => exact h.drop
  | present => exact h.keep
  | inside hvalue hinner => exact hvalue ▸ .inside hinner h

end Parts

mutual

theorem part_includeField {paths : List String} {top : Bool} {key : String} :
    ∀ value, FieldPart value (includeField paths top key value)
  | .object inner => by
    rw [includeField]
    split_ifs
    · exact .present
    · dsimp only
      split_ifs
      · exact .absent
      · exact .inside rfl (part_includePaths inner)
  | .null | .bool _ | .number _ | .string _ | .array _ => by
    rw [includeField]
    · split_ifs
      · exact .present
      · exact .absent
    · rintro inner ⟨⟩

theorem part_includePaths {paths : List String} {top : Bool} :
    ∀ fields, Part (includePaths paths top fields) fields
  | [] => .nil
  | (key, value) :: rest => by
    rw [includePaths]
    exact (part_includePaths rest).cons (part_includeField value)

end

mutual

theorem part_excludeInside {paths : List String} {key : String} :
    ∀ value, FieldPart value (some (excludeInside paths key value))
  | .object inner => by
    rw [excludeInside]
    split_ifs
    · exact .present
    · exact .inside rfl (part_excludePaths inner)
  | .null | .bool _ | .number _ | .string _ | .array _ => .present

theorem part_excludePaths {paths : List String} {top : Bool} :
    ∀ fields, Part (excludePaths paths top fields) fields
  | [] => .nil
  | (key, value) :: rest => by
    rw [excludePaths]
    split_ifs
    · exact (part_excludePaths rest).drop
    · exact (part_excludePaths rest).cons (part_excludeInside value)

end

/-! ### Joining the parts -/

mutual

/-- A value laid over another one: two objects are joined, any other value takes the place. -/
def joinValue (old? : Option Value) : Value → Value
  | .object inner =>
    match old? with
    | some (.object old) => .object (join old inner)
    | _ => .object inner
  | value => value

/-- **Two objects joined**, at any depth: the fields of the second one are laid over the first. -/
def join (fields : Object) : List (String × Value) → Object
  | [] => fields
  | (key, value) :: rest => join (fields.put key (joinValue (value? fields key) value)) rest

end

section Join
variable {fields others : Object} {key : String} {value : Value}

theorem joinValue_plain {old? : Option Value} (h : ∀ inner, value ≠ .object inner) :
    joinValue old? value = value := by
  cases value with
  | object inner => exact absurd rfl (h inner)
  | _ => rfl

theorem joinValue_none : joinValue none value = value := by
  cases value <;> rfl

theorem value?_join (honce : (keys others).Nodup) (fields : Object) :
    value? (join fields others) key =
      match value? others key with
      | none => value? fields key
      | some value => some (joinValue (value? fields key) value) := by
  induction others generalizing fields with
  | nil => rw [join, value?]
  | cons field rest ih =>
    obtain ⟨name, first⟩ := field
    obtain ⟨hfresh, hrest⟩ := List.nodup_cons.mp honce
    rw [join, ih hrest, value?_put, value?]
    by_cases hname : name = key
    · subst hname
      rw [value?_eq_none_iff.mpr hfresh, if_pos rfl, if_pos rfl]
    · rw [if_neg hname, if_neg hname]

theorem mem_keys_join :
    key ∈ keys (join fields others) ↔ key ∈ keys fields ∨ key ∈ keys others := by
  induction others generalizing fields with
  | nil => simp [join, keys]
  | cons field rest ih =>
    have hcons : keys (field :: rest) = field.1 :: keys rest := rfl
    rw [join, ih, mem_keys_put, hcons, List.mem_cons, or_assoc, or_left_comm]

theorem keys_join_nodup (honce : (keys fields).Nodup) : (keys (join fields others)).Nodup := by
  induction others generalizing fields with
  | nil => exact honce
  | cons field rest ih =>
    refine ih ?_
    rw [keys_put]
    split_ifs with hin
    · exact honce
    · refine List.nodup_append.mpr ⟨honce, List.nodup_singleton _, fun name hname other hother =>
        ?_⟩
      rintro rfl
      exact hin (List.mem_singleton.mp hother ▸ hname)

/-- Objects are equal if they have the same keys and each of them has equal values. -/
theorem agrees_of_value? {numbers : Number → Number → Bool} {fields others : Object}
    (honce : (keys fields).Nodup) (hother : (keys others).Nodup)
    (hmem : ∀ key, key ∈ keys fields ↔ key ∈ keys others)
    (hvalues : ∀ key x y, value? fields key = some x → value? others key = some y →
      Value.agrees numbers x y = true) :
    Value.agrees numbers (.object fields) (.object others) = true :=
  (Value.agrees_object_iff_keys honce).mpr
    ⟨(List.perm_ext_iff_of_nodup honce hother).mpr hmem, hvalues⟩

end Join

/-- Two values are the same up to the order of the fields of objects. -/
def permuted : Value → Value → Bool := Value.agrees fun m n => m == n

theorem permuted_refl {value : Value} (honce : value.KeysOnce) : permuted value value = true :=
  honce.agrees_refl fun n => beq_self_eq_true n

/-- **The parts of an object joined** are the object, up to the order of its fields. -/
theorem join_parted {fields : Object} (hplain : PlainKeys fields)
    (honce : (Value.object fields).KeysOnce) (paths : List String) (top : Bool)
    (hid : top = true → ∀ inner, value? fields idKey ≠ some (.object inner)) :
    permuted (.object (join (includePaths paths top fields) (excludePaths paths top fields)))
      (.object fields) = true := by
  induction hplain generalizing paths top with
  | @mk fields hkeys hinner ih =>
  have hkept : (keys (includePaths paths top fields)).Nodup :=
    (part_includePaths fields).keys_sublist.nodup honce.keys
  have hleft : (keys (excludePaths paths top fields)).Nodup :=
    (part_excludePaths fields).keys_sublist.nodup honce.keys
  have hparted {key : String} {here : Value} (hvalue : value? fields key = some here) :=
    parted honce.keys (hkeys key (mem_keys_of_value? hvalue)) paths hid hvalue
  refine agrees_of_value? (keys_join_nodup hkept) honce.keys (fun key => ?_)
    fun key joined here hjoined hvalue => ?_
  · rw [mem_keys_join]
    constructor
    · rintro (hin | hin)
      · exact (part_includePaths fields).keys_sublist.subset hin
      · exact (part_excludePaths fields).keys_sublist.subset hin
    · intro hin
      obtain ⟨here, hvalue⟩ := exists_value?_of_mem_keys hin
      have hfield := hparted hvalue
      by_contra hnone
      rw [not_or, ← value?_eq_none_iff, ← value?_eq_none_iff] at hnone
      rw [hnone.1, hnone.2] at hfield
      cases hfield
  · have hfield := hparted hvalue
    have hhere : here.KeysOnce := honce.field _ (mem_of_value? hvalue)
    rw [value?_join hleft] at hjoined
    generalize value? (includePaths paths top fields) key = kept at hfield hjoined
    generalize value? (excludePaths paths top fields) key = left at hfield hjoined
    cases hfield with
    | id _ hleaf =>
      cases hjoined
      rw [joinValue_plain hleaf]
      exact permuted_refl hhere
    | named =>
      cases hjoined
      exact permuted_refl hhere
    | divided =>
      cases hjoined
      exact ih key _ hvalue hhere _ _ (absurd · Bool.false_ne_true)
    | other =>
      cases hjoined
      rw [joinValue_none]
      exact permuted_refl hhere

end Object

/-! ### Projections of documents -/

namespace Query
open Object

/-- **Two projections are complementary.** -/
theorem projections_complementary {document : Document} {paths : List String}
    (honce : (Value.object document).KeysOnce) (hplain : PlainKeys document)
    (hid : ∀ inner, value? document idKey ≠ some (.object inner)) (hpaths : paths ≠ []) :
    ∃ kept left, (({} : Query).including paths).run [document] = .ok [kept] ∧
      (({} : Query).excluding paths).run [document] = .ok [left] ∧
      (∀ keys value, (∀ inner, value ≠ .object inner) →
        (kept.follow? keys = some value ↔
          document.follow? keys = some value ∧ (keys = [idKey] ∨ Addressed paths keys)) ∧
        (left.follow? keys = some value ↔
          document.follow? keys = some value ∧ (keys = [idKey] ∨ ¬ Addressed paths keys))) ∧
      kept.value? idKey = document.value? idKey ∧ left.value? idKey = document.value? idKey ∧
      kept.Part document ∧ left.Part document ∧
      permuted (.object (kept.join left)) (.object document) = true := by
  have hempty : paths.isEmpty = false := by simpa using hpaths
  obtain ⟨hkept, hleft⟩ := value?_id_parted honce.keys hid paths
  refine ⟨includePaths paths true document, excludePaths paths true document, ?_, ?_,
    fun keys value hleaf => ?_, hkept, hleft, part_includePaths document,
    part_excludePaths document, join_parted hplain honce paths true fun _ => hid⟩
  · simp [run, check, fault?, including, project, selects, sorted, page, hempty, keeping,
      List.filter_cons]
  · simp [run, check, fault?, excluding, project, selects, sorted, page, hempty, dropping,
      List.filter_cons]
  · simpa using follow?_parted hplain honce paths true (fun _ => hid) hleaf keys

/-- A person whose address has a city and a zip code. -/
def person : Document := [("id", .ofNat 1), ("name", .string "Ann"),
  ("address", .object [("city", .string "Oslo"), ("zip", .null)])]

/-- Of three paths one leads to the city, one into a text, and one nowhere. -/
theorem person_complementary : ∃ kept left,
    (({} : Query).including ["address.city", "name.first", "age"]).run [person] = .ok [kept] ∧
    (({} : Query).excluding ["address.city", "name.first", "age"]).run [person] = .ok [left] ∧
    kept.follow? ["address", "city"] = some (.string "Oslo") ∧
    left.follow? ["address", "city"] ≠ some (.string "Oslo") ∧
    left.follow? ["name"] = some (.string "Ann") ∧
    permuted (.object (kept.join left)) (.object person) = true := by
  have hinner : PlainKeys [("city", .string "Oslo"), ("zip", .null)] :=
    .cons (by decide) (by rintro _ ⟨⟩) (.cons (by decide) (by rintro _ ⟨⟩) .nil)
  have hplain : PlainKeys person :=
    .cons (by decide) (by rintro _ ⟨⟩) (.cons (by decide) (by rintro _ ⟨⟩) (.cons (by decide)
      (fun _ h => Value.object.inj h ▸ hinner) .nil))
  have honce : (Value.object person).KeysOnce := by
    refine .object (by decide) ?_
    simp only [person, List.forall_mem_cons]
    refine ⟨.number, .string, .object (by decide) ?_, List.forall_mem_nil _⟩
    simp only [List.forall_mem_cons]
    exact ⟨.string, .null, List.forall_mem_nil _⟩
  have hid : ∀ inner, value? person idKey ≠ some (.object inner) := by rintro _ ⟨⟩
  have hpaths : ["address.city", "name.first", "age"] ≠ [] := by decide
  obtain ⟨kept, left, hkept, hleft, hvalues, -, -, -, -, hjoin⟩ :=
    projections_complementary honce hplain hid hpaths
  have htext (s : String) : ∀ inner, Value.string s ≠ .object inner := by rintro _ ⟨⟩
  refine ⟨kept, left, hkept, hleft, ?_, ?_, ?_, hjoin⟩
  · exact (hvalues _ _ (htext _)).1.mpr ⟨rfl, .inr (by decide)⟩
  · exact fun h => absurd ((hvalues _ _ (htext _)).2.mp h).2 (by decide)
  · exact (hvalues _ _ (htext _)).2.mpr ⟨rfl, .inr (by decide)⟩

end Query

end DocumentDb
