import DocumentDb.Proofs.Document.Items
import DocumentDb.Proofs.Json.Lengths

/-!
# Values behind paths

A path leads through nested objects to a value. Declarations and documents are followed alike, and
an edit of a list writes it back behind the path that it was read from: the patch of the edit builds
the items of the new list and sets nothing else.
-/

namespace DocumentDb

/-- The fields of a value; what is no object has none. -/
def fieldsOf (value? : Option Value) : Object := (value?.bind Value.object?).getD []

namespace Object

/-- The value behind several segments, the first ones leading through nested objects. -/
def follow? (object : Object) : List String → Option Value
  | [] => none
  | [name] => value? object name
  | name :: rest =>
    match value? object name with
    | some (.object inner) => follow? inner rest
    | _ => none

/-- The object with a value behind several segments; nested objects are made where they lack. -/
def write (object : Object) (new : Value) : List String → Object
  | [] => object
  | [name] => object.put name new
  | name :: rest =>
    object.put name (.object (write (((value? object name).bind Value.object?).getD []) new rest))

variable {object other : Object} {name second : String} {rest : List String} {value : Value}

theorem follow?_nested {inner : Object} (h : value? object name = some (.object inner)) :
    follow? object (name :: second :: rest) = follow? inner (second :: rest) := by
  rw [follow?, h]
  rintro ⟨⟩

theorem follow?_eq_none (h : ∀ inner, value? object name ≠ some (.object inner)) :
    follow? object (name :: second :: rest) = none := by
  rw [follow?]
  · split
    · next inner hinner => exact absurd hinner (h inner)
    · rfl
  · rintro ⟨⟩

/-- Only the value of the first segment matters. -/
theorem follow?_congr (h : value? object name = value? other name) :
    follow? object (name :: rest) = follow? other (name :: rest) := by
  cases rest with
  | nil => exact h
  | cons second rest =>
    rw [follow?, follow?, h]
    · rintro ⟨⟩
    · rintro ⟨⟩

theorem follow?_empty (path : List String) : follow? [] path = none := by
  match path with
  | [] => rfl
  | [_] => rfl
  | _ :: _ :: _ =>
    refine follow?_eq_none fun inner hinner => ?_
    cases hinner

/-- Behind its first segment, a path goes on among the fields of the value that stands there. -/
theorem follow?_fieldsOf : follow? object (name :: second :: rest) =
    follow? (fieldsOf (value? object name)) (second :: rest) := by
  by_cases hnested : ∃ inner, value? object name = some (.object inner)
  · obtain ⟨inner, hinner⟩ := hnested
    rw [follow?_nested hinner, hinner]
    rfl
  · have hnone : ∀ inner, value? object name ≠ some (.object inner) :=
      fun inner hinner => hnested ⟨inner, hinner⟩
    have hempty : fieldsOf (value? object name) = [] := by
      cases hvalue : value? object name with
      | none => rfl
      | some value =>
        cases value with
        | object inner => exact absurd hvalue (hnone inner)
        | _ => rfl
    rw [follow?_eq_none hnone, hempty, follow?_empty]

theorem write_cons : object.write value (name :: second :: rest) =
    object.put name (.object
      (write (((value? object name).bind Value.object?).getD []) value (second :: rest))) := rfl

theorem value?_write (h : name ≠ second) :
    value? (object.write value (name :: rest)) second = value? object second := by
  cases rest with
  | nil => rw [write, value?_put, if_neg h]
  | cons next rest => rw [write_cons, value?_put, if_neg h]

/-- What was written is what is found. -/
theorem follow?_write (name : String) (rest : List String) :
    follow? (object.write value (name :: rest)) (name :: rest) = some value := by
  induction rest generalizing object name with
  | nil => rw [write, follow?, value?_put, if_pos rfl]
  | cons second rest ih =>
    have hnested : value? (object.write value (name :: second :: rest)) name =
        some (.object (write (((value? object name).bind Value.object?).getD []) value
          (second :: rest))) := by
      rw [write_cons, value?_put, if_pos rfl]
    rw [follow?_nested hnested, ih]

/-- **A write changes nothing elsewhere**, where neither path leads on from the other. -/
theorem follow?_write_elsewhere {path elsewhere : List String} (hshort : ¬ elsewhere <+: path)
    (hlong : ¬ path <+: elsewhere) :
    (object.write value path).follow? elsewhere = object.follow? elsewhere := by
  induction path generalizing object elsewhere with
  | nil => exact absurd List.nil_prefix hlong
  | cons name rest ih =>
    cases elsewhere with
    | nil => exact absurd List.nil_prefix hshort
    | cons key others =>
      by_cases hkey : name = key
      · subst hkey
        rw [List.cons_prefix_cons, not_and] at hshort hlong
        have hshort := hshort rfl
        have hlong := hlong rfl
        cases rest with
        | nil => exact absurd List.nil_prefix hlong
        | cons second rest =>
          cases others with
          | nil => exact absurd List.nil_prefix hshort
          | cons next others =>
            have hnested : value? (object.write value (name :: second :: rest)) name =
                some (.object (write (fieldsOf (value? object name)) value (second :: rest))) := by
              rw [write_cons, value?_put, if_pos rfl]
              rfl
            rw [follow?_nested hnested, ih hshort hlong, ← follow?_fieldsOf]
      · exact follow?_congr (value?_write hkey)

/-- Nothing stands behind what is no object. -/
theorem follow?_behind {path : List String}
    (h : ∀ inner, object.follow? (name :: rest) ≠ some (.object inner))
    (hbegins : name :: rest <+: path) (hne : path ≠ name :: rest) : object.follow? path = none := by
  obtain ⟨more, rfl⟩ := hbegins
  cases more with
  | nil => exact absurd (List.append_nil _) hne
  | cons next more =>
    induction rest generalizing object name with
    | nil => exact follow?_eq_none h
    | cons second rest ih =>
      rw [follow?_fieldsOf] at h
      rw [List.cons_append, List.cons_append, follow?_fieldsOf, ← List.cons_append]
      exact ih h (by simp)

end Object

/-- More than one segment leads through a nested object. -/
theorem Fields.follow?_cons {fields : Fields} {name second : String} {rest : List String}
    {node : Node} (h : fields.follow? (name :: second :: rest) = some node) :
    ∃ inner : Fields, fields.node? name = some (.nested inner) ∧
      inner.follow? (second :: rest) = some node := by
  rw [follow?] at h
  · split at h
    · next inner hnode => exact ⟨inner, hnode, h⟩
    · cases h
  · rintro ⟨⟩

namespace Listing

/-- The items behind segments are those of the array that stands there, or none. -/
theorem itemsBehind_eq (path : String) (segments : List String) (object : Object) :
    itemsBehind path segments object =
      match object.follow? segments with
      | none | some .null => .ok []
      | some (.array items) => .ok items
      | some other => .error (.mismatch path (.expected .array other)) := by
  induction segments generalizing object with
  | nil => rfl
  | cons name rest ih =>
    cases rest with
    | nil => rfl
    | cons second rest =>
      by_cases hnested : ∃ inner, Object.value? object name = some (.object inner)
      · obtain ⟨inner, hinner⟩ := hnested
        rw [Object.follow?_nested hinner, ← ih inner, itemsBehind, hinner]
        rintro ⟨⟩
      · have hnone : object.follow? (name :: second :: rest) = none :=
          Object.follow?_eq_none fun inner hinner => hnested ⟨inner, hinner⟩
        rw [hnone, itemsBehind]
        · split
          · next inner hinner => exact absurd ⟨inner, hinner⟩ hnested
          · rfl
        · rintro ⟨⟩

end Listing

namespace Build

section Writing
variable {target : String} {kind : IdKind} {items : List Value}

/-- Applying a patch of one nested field. -/
theorem mergeFields_nested {path name : String} {fields inner : Fields} {object patch : Object}
    {scope : Scope} {reserved : List String} (hreserved : name ∉ reserved)
    (hnode : fields.node? name = some (.nested inner)) :
    mergeFields path fields object [(name, .object patch)] scope reserved = (do
      let merged ← mergeFields (joinPath path name) inner
        (((Object.value? object name).bind Value.object?).getD []) patch scope.nested []
      pure (object.put name (.object merged))) := by
  have hcontains : reserved.contains name = false := by simpa using hreserved
  rw [mergeFields, hcontains, hnode]
  simp only [Bool.false_eq_true, if_false]
  refine congrArg _ (funext fun merged => ?_)
  rw [mergeFields]

/-- **A step reads the items of a list**: the value of the field is the array of what it yields. -/
def Reads (node : Node) (items : List Value) (read : String → Build (List Value)) : Prop :=
  ∀ path scope, buildValue path node (some (.array items)) scope = (do
    let built ← read path
    pure (some (.array built)))

/-- **A patch of a list** reads the items and writes them behind its path. -/
theorem mergeFields_behind {node : Node} {read : String → Build (List Value)}
    (hread : Reads node items read) (hplain : ∀ inner, node ≠ .nested inner)
    {path name : String} {rest : List String} {fields : Fields} {object : Object} {scope : Scope}
    {reserved : List String} (hfollow : fields.follow? (name :: rest) = some node)
    (hreserved : name ∉ reserved) :
    ∃ field, mergeFields path fields object
        [(name, rest.foldr (fun key value => .object [(key, value)]) (.array items))] scope
        reserved = (do
      let built ← read field
      pure (object.write (.array built) (name :: rest))) := by
  induction rest generalizing path name fields object scope reserved with
  | nil =>
    have hcontains : reserved.contains name = false := by simpa using hreserved
    refine ⟨joinPath path name, ?_⟩
    rw [List.foldr_nil, mergeFields_value hcontains hfollow hplain, hread, bind_assoc]
    refine congrArg _ (funext fun built => ?_)
    rw [pure_bind, mergeFields]
    rfl
  | cons second rest ih =>
    obtain ⟨inner, hnode, hinner⟩ := Fields.follow?_cons hfollow
    obtain ⟨field, hfield⟩ : ∃ field, mergeFields (joinPath path name) inner
        (((Object.value? object name).bind Value.object?).getD [])
        [(second, rest.foldr (fun key value => .object [(key, value)]) (.array items))] scope.nested
        [] = _ := ih hinner List.not_mem_nil
    refine ⟨field, ?_⟩
    rw [List.foldr_cons, mergeFields_nested hreserved hnode, hfield, bind_assoc]
    refine congrArg _ (funext fun built => ?_)
    rw [pure_bind, Object.write_cons]

end Writing

end Build

end DocumentDb
