import DocumentDb.Document.Id
import Mathlib.Data.List.Nodup

/-!
# Fields of objects

Objects are lists of fields, and everything else about them is said through `Object.value?`. Here is
what setting, joining and filtering fields does to the value of a key and to the list of keys.

* `Value.KeysOnce`: every object inside a value has each of its keys once.
* `DocId.eq_toValue`: the only value that stands for an id is its own.
-/

namespace DocumentDb

namespace Object

theorem mem_of_value? {fields : Object} {key : String} {value : Value}
    (h : Object.value? fields key = some value) : (key, value) ∈ fields := by
  induction fields with
  | nil => cases h
  | cons field rest ih =>
    obtain ⟨name, first⟩ := field
    simp only [Object.value?] at h
    split_ifs at h with hname
    · cases h; rw [hname]; exact List.mem_cons_self
    · exact List.mem_cons_of_mem _ (ih h)

theorem value?_eq_none_iff {fields : Object} {key : String} :
    Object.value? fields key = none ↔ key ∉ Object.keys fields := by
  induction fields with
  | nil => simp [Object.value?, Object.keys]
  | cons field rest ih =>
    obtain ⟨name, first⟩ := field
    simp only [Object.keys, List.map_cons, List.mem_cons] at ih ⊢
    by_cases hname : name = key
    · simp [Object.value?, hname]
    · simp only [Object.value?, if_neg hname, ih, Ne.symm hname, false_or]

theorem mem_keys_of_value? {fields : Object} {key : String} {value : Value}
    (h : Object.value? fields key = some value) : key ∈ Object.keys fields := by
  by_contra hnot
  rw [value?_eq_none_iff.mpr hnot] at h
  cases h

theorem exists_value?_of_mem_keys {fields : Object} {key : String}
    (h : key ∈ Object.keys fields) : ∃ value, Object.value? fields key = some value := by
  by_contra hnot
  push Not at hnot
  exact value?_eq_none_iff.mp (Option.eq_none_iff_forall_ne_some.mpr hnot) h

theorem value?_append (fields others : Object) (key : String) :
    Object.value? (fields ++ others) key =
      (Object.value? fields key).or (Object.value? others key) := by
  induction fields with
  | nil => simp [Object.value?]
  | cons field rest ih =>
    obtain ⟨name, first⟩ := field
    simp only [List.cons_append, Object.value?]
    split_ifs
    · rfl
    · exact ih

theorem value?_put (fields : Object) (key : String) (value : Value) (other : String) :
    Object.value? (fields.put key value) other =
      if key = other then some value else Object.value? fields other := by
  induction fields with
  | nil => simp [Object.put, Object.value?]
  | cons field rest ih =>
    obtain ⟨name, first⟩ := field
    simp only [Object.put]
    split_ifs with hname hother hother
    · simp [Object.value?, hother]
    · simp [Object.value?, hother, hname]
    · rw [hother] at hname
      simp only [Object.value?, if_neg hname, ih, if_pos hother]
    · simp only [Object.value?, ih, if_neg hother]

theorem keys_put (fields : Object) (key : String) (value : Value) :
    Object.keys (fields.put key value) =
      if key ∈ Object.keys fields then Object.keys fields else Object.keys fields ++ [key] := by
  induction fields with
  | nil => simp [Object.put, Object.keys]
  | cons field rest ih =>
    obtain ⟨name, first⟩ := field
    simp only [Object.keys] at ih
    simp only [Object.put, Object.keys]
    by_cases hname : name = key
    · simp [hname]
    · by_cases hin : key ∈ rest.map (·.1)
      · simp [hname, ih, hin]
      · simp [hname, ih, hin, Ne.symm hname]

theorem mem_keys_put {fields : Object} {key other : String} {value : Value} :
    other ∈ Object.keys (fields.put key value) ↔ other = key ∨ other ∈ Object.keys fields := by
  rw [keys_put]
  split_ifs with h
  · constructor
    · exact Or.inr
    · rintro (rfl | hother)
      · exact h
      · exact hother
  · simp [or_comm]

theorem value?_filter (fields : Object) (keep : String → Bool) (key : String) :
    Object.value? (fields.filter fun field => keep field.1) key =
      if keep key then Object.value? fields key else none := by
  induction fields with
  | nil => simp [Object.value?]
  | cons field rest ih =>
    obtain ⟨name, first⟩ := field
    simp only [List.filter_cons, Object.value?]
    by_cases hname : name = key
    · subst hname
      by_cases hkeep : keep name = true <;> simp [hkeep, Object.value?, ih]
    · by_cases hkeep : keep name = true <;> simp [hkeep, hname, Object.value?, ih]

theorem value?_without (fields : Object) (key other : String) :
    Object.value? (fields.without key) other =
      if other = key then none else Object.value? fields other := by
  have h := value?_filter fields (fun name => decide (name ≠ key)) other
  unfold Object.without
  rw [h]
  by_cases hother : other = key <;> simp [hother]

/-- Setting fields that another object has makes the object agree with it on their keys. -/
theorem value?_putAll {source others : Object}
    (h : ∀ field ∈ others, Object.value? source field.1 = some field.2) (fields : Object)
    (key : String) :
    Object.value? (fields.putAll others) key =
      if key ∈ Object.keys others then Object.value? source key
      else Object.value? fields key := by
  unfold Object.putAll
  induction others generalizing fields with
  | nil => simp [Object.keys]
  | cons field rest ih =>
    obtain ⟨name, value⟩ := field
    have hvalue : Object.value? source name = some value := h (name, value) List.mem_cons_self
    have hrest := ih (fun field hfield => h field (List.mem_cons_of_mem _ hfield))
    simp only [List.foldl_cons, hrest, value?_put, Object.keys, List.map_cons, List.mem_cons]
    by_cases hin : key ∈ List.map (fun field => field.1) rest
    · simp [hin]
    · by_cases hname : name = key
      · subst hname; simp [hvalue]
      · simp [hin, hname, Ne.symm hname]

/-- Setting a field to the value that it has changes nothing. -/
theorem put_eq_self {fields : Object} {key : String} {value : Value}
    (h : Object.value? fields key = some value) : fields.put key value = fields := by
  induction fields with
  | nil => cases h
  | cons field rest ih =>
    obtain ⟨name, first⟩ := field
    rw [Object.value?] at h
    rw [Object.put]
    split_ifs at h ⊢ with hname
    · cases h
      rw [hname]
    · rw [ih h]

/-- A field that lacks is set at the end. -/
theorem put_eq_append {fields : Object} {key : String} {value : Value}
    (h : key ∉ Object.keys fields) : fields.put key value = fields ++ [(key, value)] := by
  induction fields with
  | nil => rfl
  | cons field rest ih =>
    obtain ⟨name, first⟩ := field
    obtain ⟨hname, hrest⟩ : key ≠ name ∧ key ∉ Object.keys rest := by simpa [Object.keys] using h
    rw [Object.put, if_neg (Ne.symm hname), ih hrest, List.cons_append]

/-- Setting fields that have their values already if they are present: the others come at the
end. -/
theorem putAll_eq_append {fields others : Object} (honce : (Object.keys others).Nodup)
    (h : ∀ field ∈ others, field.1 ∈ Object.keys fields →
      Object.value? fields field.1 = some field.2) :
    fields.putAll others =
      fields ++ others.filter fun field => !(Object.keys fields).contains field.1 := by
  induction others generalizing fields with
  | nil => exact (List.append_nil fields).symm
  | cons field rest ih =>
    obtain ⟨name, value⟩ := field
    obtain ⟨hfresh, hrest⟩ := List.nodup_cons.mp honce
    have hput : Object.putAll fields ((name, value) :: rest) =
        (fields.put name value).putAll rest := rfl
    by_cases hname : name ∈ Object.keys fields
    · rw [hput, put_eq_self (h _ List.mem_cons_self hname),
        List.filter_cons_of_neg (by simpa using hname)]
      exact ih hrest fun other hin => h other (List.mem_cons_of_mem _ hin)
    · have hothers : ∀ other ∈ rest, name ≠ other.1 := fun other hin heq =>
        hfresh (List.mem_map.mpr ⟨other, hin, heq.symm⟩)
      have hkept : ∀ other ∈ rest, (!(Object.keys (fields.put name value)).contains other.1) =
          !(Object.keys fields).contains other.1 := by
        intro other hin
        simp [keys_put, hname, Ne.symm (hothers other hin)]
      have hagree : ∀ other ∈ rest, other.1 ∈ Object.keys (fields.put name value) →
          Object.value? (fields.put name value) other.1 = some other.2 := by
        intro other hin hkey
        rw [value?_put, if_neg (hothers other hin)]
        refine h other (List.mem_cons_of_mem _ hin) ?_
        exact (mem_keys_put.mp hkey).resolve_left (Ne.symm (hothers other hin))
      rw [hput, ih hrest hagree, List.filter_congr hkept, put_eq_append hname,
        List.filter_cons_of_pos (by simpa using hname), List.append_assoc, List.singleton_append]

/-- Setting fields keeps the first key. -/
theorem head?_putAll {fields : Object} {first : String} (others : Object)
    (h : (Object.keys fields).head? = some first) :
    (Object.keys (fields.putAll others)).head? = some first := by
  unfold Object.putAll
  induction others generalizing fields with
  | nil => exact h
  | cons field rest ih =>
    refine ih ?_
    rw [keys_put]
    split_ifs
    · exact h
    · cases hkeys : Object.keys fields with
      | nil => rw [hkeys] at h; cases h
      | cons key keys => rw [hkeys] at h; exact h

theorem mem_put {fields : Object} {key : String} {value : Value} {field : String × Value}
    (h : field ∈ fields.put key value) : field ∈ fields ∨ field = (key, value) := by
  induction fields with
  | nil => exact Or.inr (List.mem_singleton.mp h)
  | cons head rest ih =>
    obtain ⟨name, old⟩ := head
    rw [Object.put] at h
    split_ifs at h
    · rcases List.mem_cons.mp h with rfl | hin
      · exact Or.inr rfl
      · exact Or.inl (List.mem_cons_of_mem _ hin)
    · rcases List.mem_cons.mp h with rfl | hin
      · exact Or.inl List.mem_cons_self
      · rcases ih hin with hin | heq
        · exact Or.inl (List.mem_cons_of_mem _ hin)
        · exact Or.inr heq

theorem mem_putAll {fields others : Object} {field : String × Value}
    (h : field ∈ fields.putAll others) : field ∈ fields ∨ field ∈ others := by
  unfold Object.putAll at h
  induction others generalizing fields with
  | nil => exact Or.inl h
  | cons other rest ih =>
    rcases ih h with hin | hin
    · rcases mem_put hin with hin | rfl
      · exact Or.inl hin
      · exact Or.inr List.mem_cons_self
    · exact Or.inr (List.mem_cons_of_mem _ hin)

theorem has_iff {fields : Object} {key : String} :
    Object.has fields key = true ↔ key ∈ Object.keys fields := by
  simp [Object.has, Object.keys]

theorem value?_of_mem {fields : Object} (hkeys : (Object.keys fields).Nodup) :
    ∀ field ∈ fields, Object.value? fields field.1 = some field.2 := by
  induction fields with
  | nil => intro field hin; cases hin
  | cons head rest ih =>
    obtain ⟨name, first⟩ := head
    simp only [Object.keys, List.map_cons, List.nodup_cons] at hkeys ih
    intro field hin
    rcases List.mem_cons.mp hin with rfl | hrest
    · simp [Object.value?]
    · have hne : name ≠ field.1 := by
        rintro rfl
        exact hkeys.1 (List.mem_map_of_mem hrest)
      rw [Object.value?, if_neg hne]
      exact ih hkeys.2 field hrest

/-- The value of a key is that of the object laid over, if this has the key. -/
theorem value?_overlaid {others : Object} (hkeys : (Object.keys others).Nodup) (fields : Object)
    (key : String) : Object.value? (fields.putAll others) key =
      (Object.value? others key).or (Object.value? fields key) := by
  rw [value?_putAll (value?_of_mem hkeys)]
  split_ifs with hin
  · obtain ⟨value, hvalue⟩ := exists_value?_of_mem_keys hin
    rw [hvalue, Option.some_or]
  · rw [value?_eq_none_iff.mpr hin, Option.none_or]

/-- Setting several fields brings the new keys to the end. -/
theorem keys_putAll {others : Object} (honce : (Object.keys others).Nodup)
    (fields : Object) : Object.keys (fields.putAll others) = Object.keys fields ++
      (Object.keys others).filter fun key => !(Object.keys fields).contains key := by
  induction others generalizing fields with
  | nil => simp [Object.putAll, Object.keys]
  | cons field rest ih =>
    obtain ⟨name, value⟩ := field
    obtain ⟨hfresh, hrest⟩ := List.nodup_cons.mp honce
    have hput : fields.putAll ((name, value) :: rest) = (fields.put name value).putAll rest := rfl
    have hcons : Object.keys ((name, value) :: rest) = name :: Object.keys rest := rfl
    rw [hput, hcons, ih hrest, keys_put]
    by_cases hname : name ∈ Object.keys fields
    · rw [if_pos hname, List.filter_cons_of_neg (by simpa using hname)]
    · have hothers : (Object.keys rest).filter
          (fun key => !(Object.keys fields ++ [name]).contains key) =
            (Object.keys rest).filter fun key => !(Object.keys fields).contains key := by
        refine List.filter_congr fun key hkey => ?_
        have hne : key ≠ name := by
          rintro rfl
          exact hfresh hkey
        simp [hne]
      rw [if_neg hname, hothers, List.filter_cons_of_pos (by simpa using hname),
        List.append_assoc, List.singleton_append]

end Object

namespace Value

/-- Every object inside the value has each of its keys once. -/
inductive KeysOnce : Value → Prop
  | null : KeysOnce .null
  | bool {b : Bool} : KeysOnce (.bool b)
  | number {n : Number} : KeysOnce (.number n)
  | string {s : String} : KeysOnce (.string s)
  | array {items : List Value} (h : ∀ item ∈ items, KeysOnce item) : KeysOnce (.array items)
  | object {fields : List (String × Value)} (hkeys : (fields.map (·.1)).Nodup)
      (h : ∀ field ∈ fields, KeysOnce field.2) : KeysOnce (.object fields)

theorem KeysOnce.item {items : List Value} (h : KeysOnce (.array items)) :
    ∀ item ∈ items, KeysOnce item := by
  cases h with
  | array h => exact h

theorem KeysOnce.keys {fields : Object} (h : KeysOnce (.object fields)) :
    (Object.keys fields).Nodup := by
  cases h with
  | object hkeys _ => exact hkeys

theorem KeysOnce.field {fields : Object} (h : KeysOnce (.object fields)) :
    ∀ field ∈ fields, KeysOnce field.2 := by
  cases h with
  | object _ hfields => exact hfields

theorem KeysOnce.otherFields {field : String × Value} {fields : Object}
    (h : KeysOnce (.object (field :: fields))) : KeysOnce (.object fields) :=
  .object (List.nodup_cons.mp h.keys).2 fun other hin => h.field other (List.mem_cons_of_mem _ hin)

theorem KeysOnce.otherItems {item : Value} {items : List Value}
    (h : KeysOnce (.array (item :: items))) : KeysOnce (.array items) :=
  .array fun other hin => h.item other (List.mem_cons_of_mem _ hin)

theorem keysOnce_array_iff {items : List Value} :
    KeysOnce (.array items) ↔ ∀ item ∈ items, KeysOnce item := ⟨KeysOnce.item, .array⟩

theorem keysOnce_object_iff {fields : Object} : KeysOnce (.object fields) ↔
    (Object.keys fields).Nodup ∧ ∀ field ∈ fields, KeysOnce field.2 :=
  ⟨fun h => ⟨h.keys, h.field⟩, fun h => .object h.1 h.2⟩

end Value

/-- The only value that stands for an id is its own. -/
theorem DocId.eq_toValue {value : Value} {id : DocId} (h : DocId.ofValue? value = some id) :
    value = id.toValue := by
  unfold DocId.ofValue? at h
  split at h
  · next n =>
    cases n with
    | int n =>
      by_cases hneg : n < 0
      · simp [Number.toNat?, hneg] at h
      · simp only [Number.toNat?, if_neg hneg] at h
        by_cases hzero : n.toNat = 0
        · rw [if_pos hzero] at h; cases h
        · rw [if_neg hzero] at h
          cases h
          have hn : (n.toNat : Int) = n := by omega
          simp only [DocId.toValue, Value.ofNat, hn]
    | double x => simp [Number.toNat?] at h
  · split_ifs at h
    cases h
    rfl
  · cases h

theorem DocId.ofValue?_toValue_number {n : Nat} (h : 0 < n) :
    DocId.ofValue? (DocId.number n).toValue = some (.number n) := by
  have hneg : ¬ ((n : Int) < 0) := by omega
  have hzero : n ≠ 0 := by omega
  simp [DocId.toValue, Value.ofNat, DocId.ofValue?, Number.toNat?, hneg, hzero]

theorem DocId.ofValue?_toValue_text {s : String} (h : 0 < s.length) :
    DocId.ofValue? (DocId.text s).toValue = some (.text s) := by
  have hempty : s.isEmpty = false := by
    rw [Bool.eq_false_iff]
    intro hs
    rw [String.isEmpty_iff] at hs
    rw [hs] at h
    simp at h
  simp [DocId.toValue, DocId.ofValue?, hempty]

/-- The id of a document stands in its first field with the key. -/
theorem Object.id?_eq_some_iff {document : Document} {id : DocId} :
    document.id? = some id ↔
      Object.value? document idKey = some id.toValue ∧ DocId.ofValue? id.toValue = some id := by
  constructor
  · intro h
    obtain ⟨value, hvalue, hid⟩ := Option.bind_eq_some_iff.mp h
    have heq := DocId.eq_toValue hid
    rw [← heq]
    exact ⟨hvalue, hid⟩
  · rintro ⟨hvalue, hid⟩
    exact Option.bind_eq_some_iff.mpr ⟨_, hvalue, hid⟩

theorem Object.value?_id {document : Document} {id : DocId} (h : document.id? = some id) :
    Object.value? document idKey = some id.toValue :=
  (Object.id?_eq_some_iff.mp h).1

end DocumentDb
