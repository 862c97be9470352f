import DocumentDb.Proofs.Json.Objects

/-!
# Positions inside values

A position is a list of steps, each one to the value of a key or to an item of an array. What a
value shows at a position, apart from what is inside it, is its outline: the keys of an object in
their order, the length of an array, or the whole of any other value.
-/

namespace DocumentDb

namespace Value

/-- A step into a value. -/
inductive Step where
  | key (name : String)
  | item (index : Nat)
deriving DecidableEq, Repr

/-- The value behind a step. -/
def down? : Value → Step → Option Value
  | .object fields, .key name => Object.value? fields name
  | .array items, .item index => items[index]?
  | _, _ => none

/-- **The value at a position.** -/
def at? (value : Value) : List Step → Option Value
  | [] => some value
  | step :: rest => (value.down? step).bind (·.at? rest)

/-- **The outline of a value**: with null in the place of everything inside it. -/
def outline : Value → Value
  | .object fields => .object (fields.map fun field => (field.1, .null))
  | .array items => .array (items.map fun _ => .null)
  | value => value

variable {position : List Step}

theorem at?_key {fields : Object} {name : String} :
    (Value.object fields).at? (.key name :: position) =
      (Object.value? fields name).bind (·.at? position) := rfl

theorem at?_item {items : List Value} {index : Nat} :
    (Value.array items).at? (.item index :: position) =
      (items[index]?).bind (·.at? position) := rfl

/-- Objects with the same keys have the same outline. -/
theorem outline_object {fields others : Object} (h : Object.keys fields = Object.keys others) :
    outline (.object fields) = outline (.object others) := by
  have hmap (fields : Object) : fields.map (fun field => (field.1, Value.null)) =
      (Object.keys fields).map (·, .null) := by
    rw [Object.keys, List.map_map]
    rfl
  rw [outline, outline, hmap, hmap, h]

end Value

namespace Object

variable {fields : Object} {name other : String} {change further : Value → Value}

/-- The object with the value of a key changed, if the key is there. -/
def adjust (fields : Object) (name : String) (change : Value → Value) : Object :=
  match value? fields name with
  | some value => fields.put name (change value)
  | none => fields

/-- Only the first field with the key is changed. -/
theorem adjust_cons {key : String} {value : Value} {rest : Object} :
    adjust ((key, value) :: rest) name change =
      if key = name then (name, change value) :: rest
      else (key, value) :: adjust rest name change := by
  by_cases hkey : key = name
  · simp [adjust, value?, put, hkey]
  · rw [if_neg hkey, adjust, adjust, value?, if_neg hkey]
    cases value? rest name with
    | none => rfl
    | some found => simp [put, hkey]

theorem value?_adjust : value? (adjust fields name change) other =
    if other = name then (value? fields name).map change else value? fields other := by
  rw [adjust]
  cases hvalue : value? fields name with
  | none =>
    split_ifs with hother
    · rw [hother, hvalue, Option.map_none]
    · rfl
  | some value =>
    rw [value?_put, Option.map_some]
    by_cases hother : other = name
    · rw [if_pos hother, if_pos hother.symm]
    · rw [if_neg hother, if_neg (Ne.symm hother)]

theorem keys_adjust : keys (adjust fields name change) = keys fields := by
  rw [adjust]
  cases hvalue : value? fields name with
  | none => rfl
  | some value => rw [keys_put, if_pos (mem_keys_of_value? hvalue)]

/-- Two changes of one key are one change. -/
theorem adjust_adjust :
    adjust (adjust fields name change) name further = adjust fields name (further ∘ change) := by
  induction fields with
  | nil => rfl
  | cons field rest ih =>
    obtain ⟨key, value⟩ := field
    rw [adjust_cons, adjust_cons]
    split_ifs with hkey
    · rw [adjust_cons, if_pos rfl]
      rfl
    · rw [adjust_cons, if_neg hkey, ih]

/-- **Changes of different keys** can be made in any order. -/
theorem adjust_comm (h : name ≠ other) : adjust (adjust fields name change) other further =
    adjust (adjust fields other further) name change := by
  induction fields with
  | nil => rfl
  | cons field rest ih =>
    obtain ⟨key, value⟩ := field
    rw [adjust_cons, adjust_cons]
    by_cases hname : key = name
    · subst hname
      rw [if_pos rfl, if_neg h, adjust_cons, if_neg h, adjust_cons, if_pos rfl]
    · by_cases hother : key = other
      · subst hother
        rw [if_neg hname, if_pos rfl, adjust_cons, if_pos rfl, adjust_cons, if_neg hname]
      · rw [if_neg hname, if_neg hother, adjust_cons, if_neg hother, adjust_cons, if_neg hname, ih]

end Object

end DocumentDb
