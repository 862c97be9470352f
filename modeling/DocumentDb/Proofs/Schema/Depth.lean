import DocumentDb.Proofs.Schema.Declared

/-!
# How deep links stand

A link is a reference or an embedded document, alone or as the item of a list. Links may stand below
one array at most. What a declaration declares is said apart from this limit (`Declares`), and so is
where it places links (`Places`). Compiling then is judged: a declaration is refused for its depth
if a link stands too deep in it, and no other reason to refuse it depends on the depth.
-/

namespace DocumentDb

/-- **A link of a node below a number of arrays**, that of its own list included: it is reached
through fields of objects and items of lists. -/
inductive Node.HoldsLink : Node → Nat → Prop
  | reference {collection : String} {kind : IdKind} {required : Bool} :
    HoldsLink (.reference collection kind required) 0
  | document {collection : String} {required : Bool} : HoldsLink (.document collection required) 0
  | item {element : Element} {arrays : Nat} (h : HoldsLink element.asNode arrays) :
    HoldsLink (.list element) (arrays + 1)
  | field {fields : Fields} {field : String × Node} {arrays : Nat} (hfield : field ∈ fields)
    (h : HoldsLink field.2 arrays) : HoldsLink (.nested fields) arrays

/-- The error of a link that stands too deep. -/
inductive Error.TooDeep : Error → Prop
  | schema {field : String} : TooDeep (.schema field .tooDeep)

namespace Declaration

variable {kinds : Kinds} {path name : String} {options : Object} {depth : Nat}

/-! ### What a declaration says -/

/-- The options of a reference or of an embedded document. -/
def IsLink (options : Object) : Prop :=
  Object.has options schemaKey ∨ Object.has options refKey

/-- **A declaration places a link** at the path of a field, below a number of arrays. -/
inductive Places : String → Value → String → Nat → Prop
  | link {path : String} {options : Object} (hlink : IsLink options) :
    Places path (.object options) path 0
  | item {path field : String} {item : Value} {arrays : Nat} (h : Places path item field arrays) :
    Places path (.array [item]) field (arrays + 1)
  | field {path name field : String} {options : Object} {declaration : Value} {arrays : Nat}
    (hplain : ¬ IsLink options)
    (htype : ∀ name, Object.value? options typeKey ≠ some (.string name))
    (hin : (name, declaration) ∈ options)
    (h : Places (path ++ "." ++ name) declaration field arrays) :
    Places path (.object options) field arrays

mutual

/-- **What a declaration declares**, however many arrays stand around it. -/
inductive Declares (kinds : Kinds) : String → Value → Node → Prop
  | named {path name : String} {node : Node} (h : typed path name [] = .ok node) :
    Declares kinds path (.string name) node
  | untyped {path : String} : Declares kinds path (.array []) (.array {})
  | list {path : String} {item : Value} {element : Element}
    (h : DeclaresItem kinds path item element) :
    Declares kinds path (.array [item]) (.list element)
  | document {path collection : String} {options : Object} {required : Bool}
    (hkey : Object.has options schemaKey)
    (h : embedded kinds path options = .ok (collection, required)) :
    Declares kinds path (.object options) (.document collection required)
  | reference {path collection : String} {options : Object} {kind : IdKind} {required : Bool}
    (hkey : Object.has options refKey) (hother : ¬ Object.has options schemaKey)
    (h : Declaration.reference kinds path options = .ok (collection, kind, required)) :
    Declares kinds path (.object options) (.reference collection kind required)
  | typed {path name : String} {options : Object} {node : Node} (hplain : ¬ IsLink options)
    (hname : Object.value? options typeKey = some (.string name))
    (h : Declaration.typed path name options = .ok node) :
    Declares kinds path (.object options) node
  | nested {path : String} {options : Object} {fields : Fields} (hplain : ¬ IsLink options)
    (htype : ∀ value, Object.value? options typeKey = some value → ∃ inner, value = .object inner)
    (h : DeclaresFields kinds path options fields) :
    Declares kinds path (.object options) (.nested fields)

/-- What the declarations inside an object declare. -/
inductive DeclaresFields (kinds : Kinds) : String → Object → Fields → Prop
  | nil {path : String} : DeclaresFields kinds path [] []
  | cons {path name : String} {declaration : Value} {node : Node} {rest : Object} {fields : Fields}
    (h : Declares kinds (path ++ "." ++ name) declaration node)
    (hrest : DeclaresFields kinds path rest fields) :
    DeclaresFields kinds path ((name, declaration) :: rest) ((name, node) :: fields)

/-- What the declaration inside an array declares of the items. -/
inductive DeclaresItem (kinds : Kinds) : String → Value → Element → Prop
  | named {path name : String} {element : Element} (h : namedElement path name = .ok element) :
    DeclaresItem kinds path (.string name) element
  | untyped {path : String} : DeclaresItem kinds path (.array []) (.list .any)
  | list {path : String} {item : Value} {element : Element}
    (h : DeclaresItem kinds path item element) :
    DeclaresItem kinds path (.array [item]) (.list element)
  | reference {path collection : String} {options : Object} {kind : IdKind} {required : Bool}
    (hkey : Object.has options refKey)
    (h : Declaration.reference kinds path options = .ok (collection, kind, required)) :
    DeclaresItem kinds path (.object options) (.reference collection kind)
  | document {path collection : String} {options : Object} {required : Bool}
    (hkey : Object.has options schemaKey) (hother : ¬ Object.has options refKey)
    (h : embedded kinds path options = .ok (collection, required)) :
    DeclaresItem kinds path (.object options) (.document collection)
  | typed {path name : String} {options : Object} {element : Element} (hplain : ¬ IsLink options)
    (hname : Object.value? options typeKey = some (.string name))
    (h : typedElement path name options = .ok element) :
    DeclaresItem kinds path (.object options) element
  | object {path : String} {options : Object} {fields : Fields} (hplain : ¬ IsLink options)
    (htype : ∀ name, Object.value? options typeKey ≠ some (.string name))
    (h : DeclaresFields kinds path options fields) :
    DeclaresItem kinds path (.object options) (.object fields)

end

/-- A declaration of a field inside an object places a link. -/
def PlacesInside (path : String) (options : Object) (field : String) (arrays : Nat) : Prop :=
  ∃ inner ∈ options, Places (path ++ "." ++ inner.1) inner.2 field arrays

/-! ### Links of what is declared -/

section Typed
variable {arrays : Nat}

theorem typed_noLink {node : Node} (h : typed path name options = .ok node) :
    ¬ node.HoldsLink arrays := by
  intro hlink
  unfold typed at h
  split at h
  · cases h
  · cases h
  · cases h
  · obtain ⟨rules, -, rfl⟩ := map_ok_iff.mp h
    cases hlink
  · obtain ⟨rules, -, rfl⟩ := map_ok_iff.mp h
    cases hlink

theorem namedElement_noLink {element : Element} (h : namedElement path name = .ok element) :
    ¬ element.asNode.HoldsLink arrays := by
  intro hlink
  unfold namedElement at h
  split at h
  · cases h
    cases hlink
  · cases h
    cases hlink with
    | item hlink => cases hlink
  · cases h
  · cases h

theorem typedElement_noLink {element : Element}
    (h : typedElement path name options = .ok element) : ¬ element.asNode.HoldsLink arrays := by
  intro hlink
  unfold typedElement at h
  split at h
  · obtain ⟨rules, -, rfl⟩ := map_ok_iff.mp h
    cases hlink
  · cases h

end Typed

mutual

/-- **A link of what is declared** stands where the declaration places it. -/
theorem Declares.places {path : String} {declaration : Value} {node : Node}
    (h : Declares kinds path declaration node) {arrays : Nat} (hlink : node.HoldsLink arrays) :
    ∃ field, Places path declaration field arrays := by
  match h with
  | .named h => exact absurd hlink (typed_noLink h)
  | .untyped => cases hlink
  | .list h =>
    cases hlink with
    | item hlink =>
      obtain ⟨field, hplaces⟩ := h.places hlink
      exact ⟨field, .item hplaces⟩
  | .document hkey h =>
    cases hlink
    exact ⟨path, .link (.inl hkey)⟩
  | .reference hkey _ h =>
    cases hlink
    exact ⟨path, .link (.inr hkey)⟩
  | .typed _ _ h => exact absurd hlink (typed_noLink h)
  | .nested hplain htype h =>
    cases hlink with
    | field hfield hlink =>
      obtain ⟨field, inner, hin, hplaces⟩ := h.places hfield hlink
      refine ⟨field, .field hplain (fun name hname => ?_) hin hplaces⟩
      obtain ⟨_, hobject⟩ := htype _ hname
      cases hobject

theorem DeclaresFields.places {path : String} {options : Object} {fields : Fields}
    (h : DeclaresFields kinds path options fields) {field : String × Node} (hfield : field ∈ fields)
    {arrays : Nat} (hlink : field.2.HoldsLink arrays) :
    ∃ found, PlacesInside path options found arrays := by
  match h with
  | .nil => cases hfield
  | .cons h hrest =>
    rcases List.mem_cons.mp hfield with rfl | hfield
    · obtain ⟨found, hplaces⟩ := h.places hlink
      exact ⟨found, _, List.mem_cons_self, hplaces⟩
    · obtain ⟨found, inner, hin, hplaces⟩ := hrest.places hfield hlink
      exact ⟨found, inner, List.mem_cons_of_mem _ hin, hplaces⟩

theorem DeclaresItem.places {path : String} {declaration : Value} {element : Element}
    (h : DeclaresItem kinds path declaration element) {arrays : Nat}
    (hlink : element.asNode.HoldsLink arrays) : ∃ field, Places path declaration field arrays := by
  match h with
  | .named h => exact absurd hlink (namedElement_noLink h)
  | .untyped =>
    cases hlink with
    | item hlink => cases hlink
  | .list h =>
    cases hlink with
    | item hlink =>
      obtain ⟨field, hplaces⟩ := h.places hlink
      exact ⟨field, .item hplaces⟩
  | .reference hkey h =>
    cases hlink
    exact ⟨path, .link (.inr hkey)⟩
  | .document hkey _ h =>
    cases hlink
    exact ⟨path, .link (.inl hkey)⟩
  | .typed _ _ h => exact absurd hlink (typedElement_noLink h)
  | .object hplain htype h =>
    cases hlink with
    | field hfield hlink =>
      obtain ⟨field, inner, hin, hplaces⟩ := h.places hfield hlink
      exact ⟨field, .field hplain htype hin hplaces⟩

end

/-! ### Checks that do not depend on the depth -/

/-- A check whose errors are not about the depth. -/
def Shallow {α : Type} (result : Except Error α) : Prop := ∀ e, result = .error e → ¬ e.TooDeep

section Shallow
variable {α β : Type}

theorem shallow_ok {a : α} : Shallow (.ok a) := nofun

theorem shallow_pure {a : α} : Shallow (pure a) := shallow_ok

theorem shallow_fault {cause : SchemaFault} (h : cause ≠ .tooDeep) :
    Shallow (fault path cause : Except Error α) := by
  rintro e ⟨⟩ hdeep
  cases hdeep
  exact h rfl

theorem shallow_fault_bind {cause : SchemaFault} {next : α → Except Error β}
    (h : cause ≠ .tooDeep) : Shallow (fault path cause >>= next) :=
  show Shallow (fault path cause) from shallow_fault h

theorem Shallow.bind {first : Except Error α} {next : α → Except Error β} (hfirst : Shallow first)
    (hnext : ∀ a, Shallow (next a)) : Shallow (first >>= next) := by
  intro e h
  rcases bind_error_iff.mp h with h | ⟨a, -, h⟩
  · exact hfirst e h
  · exact hnext a e h

theorem Shallow.map {result : Except Error α} {f : α → β} (h : Shallow result) :
    Shallow (result.map f) := by
  cases result with
  | error e => exact fun e' h' => by cases h'; exact h e rfl
  | ok a => exact shallow_ok

end Shallow

section Options
variable {key : String} {value : Value} {marker : Marker}

theorem flag_shallow : Shallow (flag path key value) := by
  unfold flag
  split
  · exact shallow_pure
  · exact shallow_fault (by simp)

theorem flagOption_shallow : Shallow (flagOption path key options) := by
  unfold flagOption
  split
  · exact flag_shallow
  · exact shallow_pure

theorem count_shallow : Shallow (count path key value) := by
  unfold count
  split
  · exact shallow_pure
  · exact shallow_fault (by simp)

theorem number_shallow : Shallow (number path key value) := by
  unfold number
  split
  · exact shallow_pure
  · exact shallow_fault (by simp)

theorem date_shallow : Shallow (date path key value) := by
  unfold date
  split
  · exact shallow_pure
  · exact shallow_fault (by simp)

theorem list_shallow : Shallow (list path key value) := by
  unfold list
  split
  · exact shallow_pure
  · exact shallow_fault (by simp)

theorem pattern_shallow : Shallow (pattern path value) := by
  unfold pattern
  split
  · split
    · exact shallow_pure
    · exact shallow_fault (by simp)
  · exact shallow_fault (by simp)

theorem setOption_shallow {rules : Rules} : Shallow (setOption path key value rules) := by
  unfold setOption
  split
  case h_2 => exact shallow_pure
  case h_15 => exact shallow_pure
  case h_3 | h_4 => exact number_shallow.bind fun _ => shallow_pure
  case h_5 | h_6 => exact count_shallow.bind fun _ => shallow_pure
  case h_7 | h_13 => exact list_shallow.bind fun _ => shallow_pure
  case h_11 | h_12 => exact date_shallow.bind fun _ => shallow_pure
  case h_14 => exact pattern_shallow.bind fun _ => shallow_pure
  all_goals exact flag_shallow.bind fun _ => shallow_pure

theorem setOptions_shallow {options : Object} {rules : Rules} :
    Shallow (setOptions path marker options rules) := by
  induction options generalizing rules with
  | nil => exact shallow_pure
  | cons option rest ih =>
    rw [setOptions]
    split_ifs
    · exact ih
    · exact setOption_shallow.bind fun _ => ih
    · exact shallow_fault (by simp)

theorem checkDeclared_shallow {kind : ScalarKind} {rules : Rules} :
    Shallow (checkDeclared path kind rules) := by
  unfold checkDeclared
  dsimp only
  split
  · exact shallow_fault_bind (by simp)
  · split
    · split
      · exact shallow_pure
      · exact shallow_fault (by simp)
    · exact shallow_pure

theorem rules_shallow : Shallow (rules path marker options) := by
  unfold rules
  refine setOptions_shallow.bind fun rules => ?_
  dsimp only
  split_ifs
  · exact shallow_fault_bind (by simp)
  · split
    · split_ifs
      · exact shallow_fault_bind (by simp)
      · split
        · exact checkDeclared_shallow.bind fun _ => shallow_pure
        · exact shallow_pure
    · split
      · exact checkDeclared_shallow.bind fun _ => shallow_pure
      · exact shallow_pure

theorem typed_shallow : Shallow (typed path name options) := by
  unfold typed
  split
  · exact shallow_fault (by simp)
  · exact shallow_fault (by simp)
  · exact shallow_fault (by simp)
  · exact rules_shallow.map
  · exact rules_shallow.map

theorem namedElement_shallow : Shallow (namedElement path name) := by
  unfold namedElement
  split
  · exact shallow_pure
  · exact shallow_pure
  · exact shallow_fault (by simp)
  · exact shallow_fault (by simp)

theorem typedElement_shallow : Shallow (typedElement path name options) := by
  unfold typedElement
  split
  · exact rules_shallow.map
  · exact shallow_fault (by simp)

theorem checkKeys_shallow {allowed : List String} {options : Object} :
    Shallow (checkKeys path allowed options) := by
  induction options with
  | nil => exact shallow_pure
  | cons option rest ih =>
    rw [checkKeys]
    split_ifs
    · exact ih
    · exact shallow_fault (by simp)

theorem target_shallow {collection : String} : Shallow (target kinds path collection) := by
  unfold target
  split
  · exact shallow_pure
  · exact shallow_fault (by simp)

theorem embedded_shallow : Shallow (embedded kinds path options) := by
  unfold embedded
  refine checkKeys_shallow.bind fun _ => ?_
  split
  · exact target_shallow.map.bind fun _ => flagOption_shallow.bind fun _ => shallow_pure
  · exact shallow_fault (by simp)

theorem reference_shallow : Shallow (reference kinds path options) := by
  unfold reference
  refine checkKeys_shallow.bind fun _ => ?_
  split
  · next name _ =>
    have hlast : ∀ (found : String) (declared? : Option IdKind), Shallow (do
        let kind ← target kinds path found
        if declared?.getD kind ≠ kind then fault path (.refTypeDiffers found)
        pure (found, kind, ← flagOption path requiredKey options)) := by
      intro found declared?
      refine target_shallow.bind fun kind => ?_
      dsimp only
      split_ifs
      · exact shallow_fault_bind (by simp)
      · exact flagOption_shallow.bind fun _ => shallow_pure
    dsimp only
    split
    · split
      · exact hlast _ _
      · exact shallow_fault_bind (by simp)
    · exact shallow_fault_bind (by simp)
    · exact hlast _ _
  · exact shallow_fault (by simp)

end Options

/-! ### Judging declarations -/

/-- **How a declaration is judged** below `depth` arrays: it declares one thing, which is accepted,
and places no link too deep; or it is refused for a link that it places too deep; or it declares
nothing and is refused for another reason. -/
inductive Judged {α : Type} (declared : α → Prop) (places : String → Nat → Prop) (depth : Nat) :
    Except Error α → Prop
  | accepted {a : α} (h : ∀ b, declared b ↔ b = a)
    (hdepth : ∀ field arrays, places field arrays → depth + arrays ≤ 1) :
    Judged declared places depth (.ok a)
  | tooDeep {field : String} {arrays : Nat} (h : places field arrays)
    (hdepth : 1 < depth + arrays) : Judged declared places depth (.error (.schema field .tooDeep))
  | invalid {e : Error} (h : ∀ a, ¬ declared a) (hother : ¬ e.TooDeep) :
    Judged declared places depth (.error e)

section Judged
variable {α β : Type} {declared : α → Prop} {places : String → Nat → Prop} {result : Except Error α}

/-- A check that does not depend on the depth, of a declaration without links. -/
theorem Shallow.judged (h : Shallow result) (hdeclared : ∀ a, declared a ↔ result = .ok a)
    (hplaces : ∀ field arrays, ¬ places field arrays) : Judged declared places depth result := by
  cases result with
  | error e => exact .invalid (fun a ha => by cases (hdeclared a).mp ha) (h e rfl)
  | ok a =>
    refine .accepted (fun b => ?_) fun field arrays hin => absurd hin (hplaces _ _)
    rw [hdeclared, Except.ok.injEq, eq_comm]

/-- A link is judged by the arrays around it before anything else. -/
theorem Shallow.judged_link (h : Shallow result) (hdeclared : ∀ a, declared a ↔ result = .ok a)
    (hplaces : ∀ field arrays, places field arrays ↔ field = path ∧ arrays = 0) :
    Judged declared places depth (checkDepth path depth >>= fun _ => result) := by
  unfold checkDepth
  split_ifs with hdepth
  · exact .tooDeep ((hplaces path 0).mpr ⟨rfl, rfl⟩) hdepth
  · show Judged declared places depth result
    cases result with
    | error e => exact .invalid (fun a ha => by cases (hdeclared a).mp ha) (h e rfl)
    | ok a =>
      refine .accepted (fun b => ?_) fun field arrays hin => ?_
      · rw [hdeclared, Except.ok.injEq, eq_comm]
      · obtain ⟨-, rfl⟩ := (hplaces _ _).mp hin
        omega

/-- What contains another declaration is judged by it. -/
theorem Judged.map {inner : Nat} {f : α → β} {outer : β → Prop} {outside : String → Nat → Prop}
    (h : Judged declared places inner result)
    (hdeclared : ∀ b, outer b ↔ ∃ a, declared a ∧ f a = b)
    (hplaces : ∀ field total, (∃ arrays, outside field arrays ∧ depth + arrays = total) ↔
      ∃ arrays, places field arrays ∧ inner + arrays = total) :
    Judged outer outside depth (result.map f) := by
  cases h with
  | @accepted a h hdepth =>
    refine .accepted (fun b => ?_) fun field arrays hin => ?_
    · simp only [hdeclared, h, exists_eq_left]
      exact eq_comm
    · obtain ⟨below, hbelow, htotal⟩ := (hplaces field _).mp ⟨arrays, hin, rfl⟩
      rw [← htotal]
      exact hdepth field below hbelow
  | @tooDeep field arrays h hdepth =>
    obtain ⟨above, habove, htotal⟩ := (hplaces field _).mpr ⟨arrays, h, rfl⟩
    exact .tooDeep habove (by omega)
  | invalid h hother =>
    refine .invalid (fun b hb => ?_) hother
    obtain ⟨a, ha, -⟩ := (hdeclared b).mp hb
    exact h a ha

/-- One declaration is judged, and then the others behind it. -/
theorem Judged.both {γ : Type} {others : Except Error β} {behind : β → Prop}
    {placesBehind : String → Nat → Prop} {f : α → β → γ} {both : γ → Prop}
    {all : String → Nat → Prop} (h : Judged declared places depth result)
    (hothers : Judged behind placesBehind depth others)
    (hdeclared : ∀ c, both c ↔ ∃ a b, declared a ∧ behind b ∧ f a b = c)
    (hplaces : ∀ field arrays, all field arrays ↔ places field arrays ∨ placesBehind field arrays) :
    Judged both all depth (result >>= fun a => others >>= fun b => pure (f a b)) := by
  cases h with
  | tooDeep h hdepth => exact .tooDeep ((hplaces _ _).mpr (.inl h)) hdepth
  | invalid h hother =>
    refine .invalid (fun c hc => ?_) hother
    obtain ⟨a, _, ha, -⟩ := (hdeclared c).mp hc
    exact h a ha
  | @accepted a h hdepth =>
    cases hothers with
    | tooDeep h hdepth => exact .tooDeep ((hplaces _ _).mpr (.inr h)) hdepth
    | invalid h hother =>
      refine .invalid (fun c hc => ?_) hother
      obtain ⟨_, b, -, hb, -⟩ := (hdeclared c).mp hc
      exact h b hb
    | @accepted b hb hbehind =>
      refine .accepted (fun c => ?_) fun field arrays hin => ?_
      · simp only [hdeclared, h, hb, exists_and_left, exists_eq_left]
        exact eq_comm
      · exact ((hplaces _ _).mp hin).elim (hdepth _ _) (hbehind _ _)

end Judged

/-! ### What each kind of declaration declares -/

section Kinds
variable {node : Node} {element : Element} {item : Value}

theorem declares_named_iff :
    Declares kinds path (.string name) node ↔ typed path name [] = .ok node := by
  refine ⟨fun h => ?_, .named⟩
  cases h with
  | named h => exact h

theorem declares_list_iff : Declares kinds path (.array [item]) node ↔
    ∃ element, DeclaresItem kinds path item element ∧ .list element = node := by
  constructor
  · intro h
    cases h with
    | list h => exact ⟨_, h, rfl⟩
  · rintro ⟨element, h, rfl⟩
    exact .list h

theorem declares_document_iff (hschema : Object.has options schemaKey) :
    Declares kinds path (.object options) node ↔
      (embedded kinds path options >>= fun found => pure (.document found.1 found.2)) =
        .ok node := by
  rw [bind_ok_iff]
  constructor
  · intro h
    cases h with
    | document _ h => exact ⟨_, h, rfl⟩
    | reference _ hother _ => exact absurd hschema hother
    | typed hplain _ _ => exact absurd (.inl hschema) hplain
    | nested hplain _ _ => exact absurd (.inl hschema) hplain
  · rintro ⟨_, h, ⟨⟩⟩
    exact .document hschema h

theorem declares_reference_iff (hschema : ¬ Object.has options schemaKey)
    (href : Object.has options refKey) :
    Declares kinds path (.object options) node ↔
      (reference kinds path options >>= fun found =>
        pure (.reference found.1 found.2.1 found.2.2)) = .ok node := by
  rw [bind_ok_iff]
  constructor
  · intro h
    cases h with
    | document hkey _ => exact absurd hkey hschema
    | reference _ _ h => exact ⟨_, h, rfl⟩
    | typed hplain _ _ => exact absurd (.inr href) hplain
    | nested hplain _ _ => exact absurd (.inr href) hplain
  · rintro ⟨_, h, ⟨⟩⟩
    exact .reference href hschema h

theorem declares_typed_iff (hplain : ¬ IsLink options)
    (hname : Object.value? options typeKey = some (.string name)) :
    Declares kinds path (.object options) node ↔ typed path name options = .ok node := by
  refine ⟨fun h => ?_, .typed hplain hname⟩
  cases h with
  | document hkey _ => exact absurd (.inl hkey) hplain
  | reference hkey _ _ => exact absurd (.inr hkey) hplain
  | typed _ hother h =>
    cases hname.symm.trans hother
    exact h
  | nested _ htype _ =>
    obtain ⟨_, hobject⟩ := htype _ hname
    cases hobject

theorem declares_nested_iff (hplain : ¬ IsLink options)
    (htype : ∀ value, Object.value? options typeKey = some value → ∃ inner, value = .object inner) :
    Declares kinds path (.object options) node ↔
      ∃ fields, DeclaresFields kinds path options fields ∧ .nested fields = node := by
  constructor
  · intro h
    cases h with
    | document hkey _ => exact absurd (.inl hkey) hplain
    | reference hkey _ _ => exact absurd (.inr hkey) hplain
    | typed _ hname _ =>
      obtain ⟨_, hobject⟩ := htype _ hname
      cases hobject
    | nested _ _ h => exact ⟨_, h, rfl⟩
  · rintro ⟨fields, h, rfl⟩
    exact .nested hplain htype h

/-- A type that is neither a name nor an object declares nothing. -/
theorem not_declares_of_type {type : Value} (hplain : ¬ IsLink options)
    (htype : Object.value? options typeKey = some type) (hname : ∀ name, type ≠ .string name)
    (hobject : ∀ inner, type ≠ .object inner) : ¬ Declares kinds path (.object options) node := by
  intro h
  cases h with
  | document hkey _ => exact hplain (.inl hkey)
  | reference hkey _ _ => exact hplain (.inr hkey)
  | typed _ h _ => exact hname _ (Option.some.inj (htype.symm.trans h))
  | nested _ h _ =>
    obtain ⟨inner, heq⟩ := h _ htype
    exact hobject inner heq

theorem declaresItem_named_iff :
    DeclaresItem kinds path (.string name) element ↔ namedElement path name = .ok element := by
  refine ⟨fun h => ?_, .named⟩
  cases h with
  | named h => exact h

theorem declaresItem_list_iff : DeclaresItem kinds path (.array [item]) element ↔
    ∃ inner, DeclaresItem kinds path item inner ∧ .list inner = element := by
  constructor
  · intro h
    cases h with
    | list h => exact ⟨_, h, rfl⟩
  · rintro ⟨inner, h, rfl⟩
    exact .list h

theorem declaresItem_reference_iff (href : Object.has options refKey) :
    DeclaresItem kinds path (.object options) element ↔
      (reference kinds path options >>= fun found => pure (.reference found.1 found.2.1)) =
        .ok element := by
  rw [bind_ok_iff]
  constructor
  · intro h
    cases h with
    | document _ hother _ => exact absurd href hother
    | reference _ h => exact ⟨_, h, rfl⟩
    | typed hplain _ _ => exact absurd (.inr href) hplain
    | object hplain _ _ => exact absurd (.inr href) hplain
  · rintro ⟨_, h, ⟨⟩⟩
    exact .reference href h

theorem declaresItem_document_iff (href : ¬ Object.has options refKey)
    (hschema : Object.has options schemaKey) :
    DeclaresItem kinds path (.object options) element ↔
      (embedded kinds path options >>= fun found => pure (.document found.1)) = .ok element := by
  rw [bind_ok_iff]
  constructor
  · intro h
    cases h with
    | document _ _ h => exact ⟨_, h, rfl⟩
    | reference hkey _ => exact absurd hkey href
    | typed hplain _ _ => exact absurd (.inl hschema) hplain
    | object hplain _ _ => exact absurd (.inl hschema) hplain
  · rintro ⟨_, h, ⟨⟩⟩
    exact .document hschema href h

theorem declaresItem_typed_iff (hplain : ¬ IsLink options)
    (hname : Object.value? options typeKey = some (.string name)) :
    DeclaresItem kinds path (.object options) element ↔
      typedElement path name options = .ok element := by
  refine ⟨fun h => ?_, .typed hplain hname⟩
  cases h with
  | document hkey _ _ => exact absurd (.inl hkey) hplain
  | reference hkey _ => exact absurd (.inr hkey) hplain
  | typed _ hother h =>
    cases hname.symm.trans hother
    exact h
  | object _ htype _ => exact absurd hname (htype _)

theorem declaresItem_object_iff (hplain : ¬ IsLink options)
    (htype : ∀ name, Object.value? options typeKey ≠ some (.string name)) :
    DeclaresItem kinds path (.object options) element ↔
      ∃ fields, DeclaresFields kinds path options fields ∧ .object fields = element := by
  constructor
  · intro h
    cases h with
    | document hkey _ _ => exact absurd (.inl hkey) hplain
    | reference hkey _ => exact absurd (.inr hkey) hplain
    | typed _ hname _ => exact absurd hname (htype _)
    | object _ _ h => exact ⟨_, h, rfl⟩
  · rintro ⟨fields, h, rfl⟩
    exact .object hplain htype h

theorem declaresFields_cons_iff {declaration : Value} {rest : Object} {fields : Fields} :
    DeclaresFields kinds path ((name, declaration) :: rest) fields ↔
      ∃ node others, Declares kinds (path ++ "." ++ name) declaration node ∧
        DeclaresFields kinds path rest others ∧ (name, node) :: others = fields := by
  constructor
  · intro h
    cases h with
    | cons h hrest => exact ⟨_, _, h, hrest, rfl⟩
  · rintro ⟨node, others, h, hrest, rfl⟩
    exact .cons h hrest

end Kinds

/-! ### Where links are placed -/

theorem places_link_iff (hlink : IsLink options) {field : String} {arrays : Nat} :
    Places path (.object options) field arrays ↔ field = path ∧ arrays = 0 := by
  constructor
  · intro h
    cases h with
    | link => exact ⟨rfl, rfl⟩
    | field hplain => exact absurd hlink hplain
  · rintro ⟨rfl, rfl⟩
    exact .link hlink

theorem places_object_iff (hplain : ¬ IsLink options)
    (htype : ∀ name, Object.value? options typeKey ≠ some (.string name)) {field : String}
    {arrays : Nat} :
    Places path (.object options) field arrays ↔ PlacesInside path options field arrays := by
  constructor
  · intro h
    cases h with
    | link hlink => exact absurd hlink hplain
    | field _ _ hin h => exact ⟨_, hin, h⟩
  · rintro ⟨inner, hin, h⟩
    exact .field hplain htype hin h

theorem not_places_typed (hplain : ¬ IsLink options)
    (hname : Object.value? options typeKey = some (.string name)) {field : String} {arrays : Nat} :
    ¬ Places path (.object options) field arrays := by
  intro h
  cases h with
  | link hlink => exact hplain hlink
  | field _ htype => exact htype name hname

theorem places_item_iff {item : Value} {field : String} {total : Nat} :
    (∃ arrays, Places path (.array [item]) field arrays ∧ depth + arrays = total) ↔
      ∃ arrays, Places path item field arrays ∧ depth + 1 + arrays = total := by
  constructor
  · rintro ⟨_, h, rfl⟩
    cases h with
    | @item _ _ _ arrays h => exact ⟨arrays, h, by omega⟩
  · rintro ⟨arrays, h, rfl⟩
    exact ⟨arrays + 1, .item h, by omega⟩

/-! ### Every declaration is judged -/

mutual

theorem node_judged (kinds : Kinds) (path : String) (depth : Nat) (declaration : Value) :
    Judged (Declares kinds path declaration) (Places path declaration) depth
      (node kinds path depth declaration) := by
  match declaration with
  | .string name =>
    rw [node]
    exact typed_shallow.judged (fun _ => declares_named_iff) nofun
  | .array [] =>
    rw [node]
    refine shallow_pure.judged (fun result => ⟨fun h => ?_, fun h => ?_⟩) nofun
    · cases h
      rfl
    · cases h
      exact .untyped
  | .array [item] =>
    rw [node, elements]
    · exact (element_judged kinds path (depth + 1) item).map (fun _ => declares_list_iff)
        fun _ _ => places_item_iff
    · nofun
  | .array (_ :: _ :: _) =>
    rw [node, elements]
    · exact .invalid (fun _ h => by cases h) fun h => by cases h
    · nofun
    · nofun
    · nofun
  | .object options =>
    rw [node]
    split_ifs with hschema href
    · exact (embedded_shallow.bind fun _ => shallow_pure).judged_link
        (fun _ => declares_document_iff hschema) fun _ _ => places_link_iff (.inl hschema)
    · exact (reference_shallow.bind fun _ => shallow_pure).judged_link
        (fun _ => declares_reference_iff hschema href) fun _ _ => places_link_iff (.inr href)
    have hplain : ¬ IsLink options := not_or.mpr ⟨hschema, href⟩
    have hnested (htype : ∀ value, Object.value? options typeKey = some value →
        ∃ inner, value = .object inner) :
        Judged (Declares kinds path (.object options)) (Places path (.object options)) depth
          ((fields kinds path depth options).map .nested) := by
      have hname : ∀ name, Object.value? options typeKey ≠ some (.string name) := by
        intro name h
        obtain ⟨_, hobject⟩ := htype _ h
        cases hobject
      exact (fields_judged kinds path depth options).map
        (fun _ => declares_nested_iff hplain htype)
        fun _ _ => by simp only [places_object_iff hplain hname]
    split
    · next name hname =>
      exact typed_shallow.judged (fun _ => declares_typed_iff hplain hname)
        fun _ _ => not_places_typed hplain hname
    · next inner htype => exact hnested fun value h => ⟨inner, by cases htype.symm.trans h; rfl⟩
    · next hnone => exact hnested fun value h => by cases hnone.symm.trans h
    · next other hname hobject htype =>
      exact .invalid (fun _ => not_declares_of_type hplain htype hname hobject) fun h => by cases h
  | .null => exact .invalid nofun nofun
  | .bool _ => exact .invalid nofun nofun
  | .number _ => exact .invalid nofun nofun

theorem fields_judged (kinds : Kinds) (path : String) (depth : Nat)
    (declarations : List (String × Value)) :
    Judged (DeclaresFields kinds path declarations) (PlacesInside path declarations) depth
      (fields kinds path depth declarations) := by
  match declarations with
  | [] =>
    rw [fields]
    refine shallow_pure.judged (fun result => ⟨fun h => ?_, fun h => ?_⟩) fun _ _ h => ?_
    · cases h
      rfl
    · cases h
      exact .nil
    · obtain ⟨_, hin, -⟩ := h
      cases hin
  | (name, declaration) :: rest =>
    rw [fields]
    exact (node_judged kinds (path ++ "." ++ name) depth declaration).both
      (fields_judged kinds path depth rest) (fun _ => declaresFields_cons_iff)
      fun _ _ => List.exists_mem_cons_iff _ _ _

theorem element_judged (kinds : Kinds) (path : String) (depth : Nat) (declaration : Value) :
    Judged (DeclaresItem kinds path declaration) (Places path declaration) depth
      (element kinds path depth declaration) := by
  match declaration with
  | .string name =>
    rw [element]
    exact namedElement_shallow.judged (fun _ => declaresItem_named_iff) nofun
  | .array [] =>
    rw [element, elements]
    refine (shallow_ok (a := Element.list .any)).judged
      (fun result => ⟨fun h => ?_, fun h => ?_⟩) nofun
    · cases h
      rfl
    · cases h
      exact .untyped
  | .array [item] =>
    rw [element, elements]
    exact (element_judged kinds path (depth + 1) item).map (fun _ => declaresItem_list_iff)
      fun _ _ => places_item_iff
  | .array (_ :: _ :: _) =>
    rw [element, elements]
    · exact .invalid (fun _ h => by cases h) fun h => by cases h
    · nofun
    · nofun
  | .object options =>
    rw [element]
    split_ifs with href hschema
    · exact (reference_shallow.bind fun _ => shallow_pure).judged_link
        (fun _ => declaresItem_reference_iff href) fun _ _ => places_link_iff (.inr href)
    · exact (embedded_shallow.bind fun _ => shallow_pure).judged_link
        (fun _ => declaresItem_document_iff href hschema)
        fun _ _ => places_link_iff (.inl hschema)
    have hplain : ¬ IsLink options := not_or.mpr ⟨hschema, href⟩
    split
    · next name hname =>
      exact typedElement_shallow.judged (fun _ => declaresItem_typed_iff hplain hname)
        fun _ _ => not_places_typed hplain hname
    · next htype =>
      exact (fields_judged kinds path depth options).map
        (fun _ => declaresItem_object_iff hplain htype)
        fun _ _ => by simp only [places_object_iff hplain htype]
  | .null => exact .invalid nofun nofun
  | .bool _ => exact .invalid nofun nofun
  | .number _ => exact .invalid nofun nofun

end

/-- **Links stand below one array at most, and only deeper ones are refused for it.** Where a
declaration of a field at the top of a collection is accepted, no link of the node stands below two
arrays. A declaration that declares something is refused for its depth if and only if it places a
link below two arrays, and is accepted if not. The error names the field of such a link. -/
theorem links_stand_shallow (kinds : Kinds) (path : String) (declaration : Value) :
    (∀ result, node kinds path 0 declaration = .ok result →
      ∀ arrays, result.HoldsLink arrays → arrays ≤ 1) ∧
    (∀ result, Declares kinds path declaration result →
      ((∃ field, node kinds path 0 declaration = .error (.schema field .tooDeep)) ↔
        ∃ field arrays, Places path declaration field arrays ∧ 2 ≤ arrays) ∧
      (node kinds path 0 declaration = .ok result ↔
        ∀ field arrays, Places path declaration field arrays → arrays ≤ 1)) ∧
    ∀ field, node kinds path 0 declaration = .error (.schema field .tooDeep) →
      ∃ arrays, Places path declaration field arrays ∧ 2 ≤ arrays := by
  have hjudged := node_judged kinds path 0 declaration
  generalize node kinds path 0 declaration = judged at hjudged ⊢
  cases hjudged with
  | @accepted node h hdepth =>
    simp only [Nat.zero_add] at hdepth
    refine ⟨?_, fun result hresult => ⟨⟨nofun, ?_⟩, ?_⟩, nofun⟩
    · rintro _ ⟨⟩ arrays hlink
      obtain ⟨field, hplaces⟩ := ((h node).mpr rfl).places hlink
      exact hdepth field arrays hplaces
    · rintro ⟨field, arrays, hplaces, hdeep⟩
      exact absurd (hdepth field arrays hplaces) (Nat.not_le_of_lt hdeep)
    · rw [(h result).mp hresult]
      exact iff_of_true rfl hdepth
  | @tooDeep field arrays h hdeep =>
    rw [Nat.zero_add] at hdeep
    refine ⟨nofun, fun result _ => ⟨iff_of_true ⟨field, rfl⟩ ⟨field, arrays, h, hdeep⟩, ?_⟩, ?_⟩
    · exact iff_of_false nofun fun hdepth => Nat.not_le_of_lt hdeep (hdepth field arrays h)
    · rintro _ ⟨⟩
      exact ⟨arrays, h, hdeep⟩
  | invalid h hother =>
    refine ⟨nofun, fun result hresult => absurd hresult (h result), ?_⟩
    rintro field ⟨⟩
    exact absurd .schema hother

/-! ### References in a list of lists -/

/-- A collection of people. -/
def peopleKinds : Kinds := [("people", .incr)]

/-- A board is a list of lists of cards, each with the person that owns it. -/
def boardDeclaration : Value :=
  .array [.array [.object [("title", .string "String"),
    ("owner", .object [(refKey, .string "people")])]]]

/-- What a board would hold. -/
def boardNode : Node :=
  .list (.list (.object [("title", .scalar .string {}),
    ("owner", .reference "people" .incr false)]))

/-- The owner of a card stands below two arrays, and a board is refused for nothing else. -/
theorem board_refused :
    Declares peopleKinds "board" boardDeclaration boardNode ∧
    Places "board" boardDeclaration "board.owner" 2 ∧
    ∃ field, node peopleKinds "board" 0 boardDeclaration = .error (.schema field .tooDeep) := by
  have hplain : ¬ IsLink [("title", .string "String"),
      ("owner", .object [(refKey, .string "people")])] := by
    unfold IsLink
    decide
  have hdeclares : Declares peopleKinds "board" boardDeclaration boardNode :=
    .list (.list (.object hplain nofun
      (.cons (.named rfl) (.cons (.reference rfl nofun rfl) .nil))))
  have hplaces : Places "board" boardDeclaration "board.owner" 2 :=
    .item (.item (.field hplain nofun (.tail _ (.head _)) (.link (.inr rfl))))
  exact ⟨hdeclares, hplaces,
    ((links_stand_shallow peopleKinds "board" boardDeclaration).2.1 _ hdeclares).1.mpr
      ⟨_, _, hplaces, Nat.le_refl 2⟩⟩

/-- In a plain list of cards the owners may stay. -/
example : ∃ result, node peopleKinds "cards" 0 (.array [.object [("title", .string "String"),
    ("owner", .object [(refKey, .string "people")])]]) = .ok result := ⟨_, rfl⟩

end Declaration

end DocumentDb
