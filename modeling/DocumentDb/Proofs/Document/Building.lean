import DocumentDb.Proofs.Document.Naming

/-!
# Building keeps work sound

One law for each function of the builder, by recursion over the input and the schema as the builder
itself recurses: sound work stays sound, results fit the nodes that they are built for, and new
documents conform to the schemas of their collections. The input may name any ids that the ground
allows.
-/

namespace DocumentDb

namespace Build

section Single
variable {ground : Ground} {opened : List (String × DocId)} {work : Work} {α : Type}

theorem mismatch_keeps {path : String} {expectation : Expectation} {value : Value}
    {done : α → Work → Prop} :
    Keeps ground opened work (mismatch path expectation value) done :=
  keeps_fail (by rintro ⟨⟩)

/-- An absent field is left out if it is not required. -/
theorem absent_keeps {path : String} {strict : Bool} (node : Node)
    (hnested : ∀ inner, node ≠ .nested inner) :
    Keeps ground opened work (absent path node.isRequired) fun built after =>
      FitsOrOmits ground.context.registry (ground.Knows after) strict node built := by
  unfold absent
  split_ifs with hrequired
  · exact keeps_fail (by rintro ⟨⟩)
  · have homissible : node.Omissible := .field hnested (Bool.eq_false_iff.mpr hrequired)
    exact keeps_pure homissible

/-- A null is kept if the field is not required. -/
theorem keepNull_keeps {path : String} {strict : Bool} (node : Node)
    (htakes : node.takesNull = !node.isRequired) :
    Keeps ground opened work (keepNull path node.isRequired) fun built after =>
      FitsOrOmits ground.context.registry (ground.Knows after) strict node built := by
  unfold keepNull
  split_ifs with hrequired
  · exact keeps_fail (by rintro ⟨⟩)
  · have hnull : node.takesNull = true := by rw [htakes]; simpa using hrequired
    exact keeps_pure (Fits.null hnull)

theorem passThrough_noReuse {path : String} {fields : Fields} {reserved : List String}
    {strict : Bool} (input : Object) : NoReuse (passThrough path fields reserved strict input) := by
  induction input with
  | nil => exact noReuse_pure
  | cons entry rest ih =>
    obtain ⟨key, value⟩ := entry
    simp only [passThrough]
    split_ifs
    · exact ih
    · exact noReuse_error (by rintro ⟨⟩)
    · exact ih.bind fun _ => noReuse_pure

/-- Only undeclared fields pass through, and none below a strict schema. -/
theorem passThrough_ok {path : String} {fields : Fields} {reserved : List String} {strict : Bool}
    {input others : Object} (h : passThrough path fields reserved strict input = .ok others) :
    (∀ key ∈ Object.keys others, key ∉ fields.names) ∧ (strict = true → others = []) := by
  induction input generalizing others with
  | nil => cases h; exact ⟨by simp [Object.keys], fun _ => rfl⟩
  | cons entry rest ih =>
    obtain ⟨key, value⟩ := entry
    simp only [passThrough] at h
    split_ifs at h with hdeclared hstrict
    · exact ih h
    · obtain ⟨more, hmore, h⟩ := bind_ok_iff.mp h
      cases h
      obtain ⟨hkeys, _⟩ := ih hmore
      simp only [Bool.or_eq_true, not_or] at hdeclared
      refine ⟨fun other hother => ?_, fun hs => absurd hs hstrict⟩
      rcases List.mem_cons.mp hother with rfl | hin
      · exact fun hname => hdeclared.1 (Fields.declares_iff.mpr hname)
      · exact hkeys other hin

theorem castItems_noReuse {path : String} {kind : ScalarKind} {rules : Rules} {index : Nat}
    (items : List Value) : NoReuse (castItems path kind rules index items) := by
  induction items generalizing index with
  | nil => exact noReuse_pure
  | cons item rest ih =>
    exact Rules.cast_noReuse.bind fun _ => ih.bind fun _ => noReuse_pure

theorem castItems_ok {path : String} {kind : ScalarKind} {rules : Rules} {index : Nat}
    {items built : List Value} {registry : Registry} {known : String → DocId → Prop} {strict : Bool}
    (h : castItems path kind rules index items = .ok built) :
    ∀ item ∈ built, Fits registry known strict (.scalar kind rules) item := by
  induction items generalizing index built with
  | nil => cases h; simp
  | cons item rest ih =>
    obtain ⟨first, hfirst, h⟩ := bind_ok_iff.mp h
    obtain ⟨others, hothers, h⟩ := bind_ok_iff.mp h
    cases h
    exact List.forall_mem_cons.mpr ⟨fits_cast hfirst, ih hothers⟩

theorem buildUntyped_keeps {path : String} {rules : Rules} {value? : Option Value} {strict : Bool} :
    Keeps ground opened work (buildUntyped path rules value?) fun built after =>
      FitsOrOmits ground.context.registry (ground.Knows after) strict (.array rules) built := by
  have hcheck : ∀ value, Keeps ground opened work (buildUntyped.check path rules value)
      fun built after =>
        FitsOrOmits ground.context.registry (ground.Knows after) strict (.array rules) built := by
    intro value
    unfold buildUntyped.check
    split
    · refine Opens.bind (lift_keeps Rules.checkItems_noReuse) ?_
      exact fun _ _ _ _ => keeps_pure Fits.array
    · exact mismatch_keeps
  unfold buildUntyped
  split
  · exact keeps_pure Fits.array
  · exact hcheck _
  · exact hcheck _
  · exact absent_keeps (.array rules) (by simp)

/-- A nested object without input is left out if nothing is built for it. -/
theorem unlessEmpty_keeps {step : Build Object} {fields : Fields} {strict : Bool}
    (h : Keeps ground opened work step fun built after =>
      FieldsFit ground.context.registry (ground.Knows after) strict [] fields built) :
    Keeps ground opened work
      (do
        let built ← step
        pure (if built.isEmpty then none else some (.object built)))
      fun built after =>
        FitsOrOmits ground.context.registry (ground.Knows after) strict (.nested fields) built := by
  refine Opens.bind h fun built after _ hbuilt => keeps_pure ?_
  cases built with
  | nil => exact .nested fun field hfield => hbuilt.absent field hfield List.not_mem_nil rfl
  | cons entry rest => exact fits_nested_iff.mpr hbuilt

theorem checkSameId_noReuse {path : String} {id : DocId} {patch : Object} :
    NoReuse (checkSameId path id patch) := by
  unfold checkSameId
  split
  · exact noReuse_pure
  · exact noReuse_error (by rintro ⟨⟩)
  · split_ifs
    · exact noReuse_pure
    · exact noReuse_error (by rintro ⟨⟩)

variable (hground : ground.Sound)
include hground

theorem newId_opens {path collection : String} {input : Object}
    (hnamed : ∀ id, Object.value? input idKey = some (DocId.toValue id) →
      ground.named collection id) :
    Opens ground opened work (newId path collection input)
      (fun id => (collection, id) :: opened) (Taking ground collection) := by
  unfold newId
  split
  · exact generateId_opens hground collection
  · exact generateId_opens hground collection
  · next value _ hvalue =>
    exact claimId_opens hground collection _ value fun id hid => hnamed id (hid ▸ hvalue)

end Single

/-! ### The builder -/

/-- A document whose id is taken. -/
def Made (ground : Ground) (collection : String) (document : Document) (after : Work) : Prop :=
  ∃ id, after.Taken collection id ∧ ground.Built after collection id document

/-- The id of a new document is open until the document waits or is stored. -/
def opening (collection : String) (opened : List (String × DocId)) (document : Document) :
    List (String × DocId) :=
  (document.id?.map fun id => (collection, id)).toList ++ opened

/-- What comes of merging a patch into an object: the fields fit, and reserved keys are left
alone. -/
structure Merged (ground : Ground) (strict : Bool) (reserved : List String) (fields : Fields)
    (target merged : Object) (after : Work) : Prop where
  fits : FieldsFit ground.context.registry (ground.Knows after) strict reserved fields merged
  kept : ∀ key ∈ reserved, Object.value? merged key = Object.value? target key

theorem Merged.of_changed {ground : Ground} {strict : Bool} {reserved : List String}
    {fields : Fields} {target changed merged : Object} {after : Work}
    (h : Merged ground strict reserved fields changed merged after)
    (hsame : ∀ key ∈ reserved, Object.value? changed key = Object.value? target key) :
    Merged ground strict reserved fields target merged after where
  fits := h.fits
  kept key hkey := by rw [h.kept key hkey, hsame key hkey]

section Builder
variable {ground : Ground}

mutual

theorem insertDocument_opens (hground : ground.Sound) (path collection : String) (input : Object)
    (inject : Option Owner) {opened : List (String × DocId)} {work : Work}
    (hinput : ground.Permits (.document collection false) (.object input)) :
    Opens ground opened work (insertDocument path collection input inject)
      (opening collection opened) (Made ground collection) := by
  rw [insertDocument]
  refine Opens.bind (tree_keeps collection) fun tree _ _ htree => ?_
  refine Opens.bind (newId_opens hground fun id hid => hinput.own rfl hid) ?_
  rintro id _ _ ⟨htaken, own, hown, hadmits⟩
  rw [htree] at hown
  cases hown
  have hproper := hground.registry.tree? htree
  refine Opens.bind (buildFields_keeps hground path tree.fields input _ tree.managedKeys
    hproper.fields (hinput.inside rfl htree)) fun fields after hgrows hfields => ?_
  refine Opens.bind read_keeps ?_
  rintro _ _ _ ⟨rfl, rfl⟩
  refine Opens.bind (checkSize_keeps hground collection _) fun _ last hlast _ => ?_
  obtain ⟨hconforms, hid⟩ := conforms_new ground.context.now hadmits hproper.id hproper.noId
    (hfields.mono (ground.knows_mono hlast))
  refine opens_pure ?_ ⟨id, ?_, hid, tree, htree, hconforms⟩
  · simp only [opening, hid]
    rfl
  · exact hlast _ _ (hgrows _ _ htaken)
termination_by (sizeOf input, 2, 0)
decreasing_by exact .right _ (.left _ _ (by decide))

theorem updateDocument_keeps (hground : ground.Sound) (path collection : String)
    (existing : Document) (patch : Object) {opened : List (String × DocId)} {work : Work}
    {id : DocId} (hexisting : ground.Built work collection id existing)
    (hpatch : ground.Permits (.document collection false) (.object patch)) :
    Keeps ground opened work (updateDocument path collection existing patch)
      fun document after => ground.Built after collection id document := by
  rw [updateDocument]
  refine Opens.bind (tree_keeps collection) fun tree after hgrows htree => ?_
  rw [hexisting.id]
  obtain ⟨own, hown, hconforms⟩ := hexisting.conform
  rw [htree] at hown
  cases hown
  have hproper := hground.registry.tree? htree
  refine Opens.bind (lift_keeps checkSameId_noReuse) fun _ middle hmiddle _ => ?_
  have hbefore := hconforms.mono (ground.knows_mono (hgrows.trans hmiddle))
  refine Opens.bind (mergeFields_keeps hground path tree.fields existing patch _ tree.managedKeys
    hproper.fields (hpatch.inside rfl htree) hbefore.fields) ?_
  rintro merged merging hmerging ⟨hmerged, hkept⟩
  refine Opens.bind read_keeps ?_
  rintro _ _ _ ⟨rfl, rfl⟩
  refine Opens.bind (checkSize_keeps hground collection _) fun _ last hlast _ => ?_
  have hlater := ground.knows_mono hlast
  obtain ⟨hdone, hid⟩ := conforms_changed ground.context.now
    ((hbefore.mono (ground.knows_mono hmerging)).mono hlater) hexisting.id hkept
    (hmerged.mono hlater)
  exact keeps_pure ⟨hid, tree, htree, hdone⟩
termination_by (sizeOf patch, 2, 0)
decreasing_by exact .right _ (.left _ _ (by decide))

theorem buildFields_keeps (hground : ground.Sound) (path : String) (fields : Fields)
    (input : Object) (scope : Scope) (reserved : List String) {opened : List (String × DocId)}
    {work : Work} (hproper : (Node.nested fields).Proper)
    (hinput : ground.Permits (.nested fields) (.object input)) :
    Keeps ground opened work (buildFields path fields input scope reserved) fun built after =>
      FieldsFit ground.context.registry (ground.Knows after) scope.strict [] fields built := by
  rw [buildFields]
  refine Opens.bind (buildDeclared_keeps hground path fields input scope hproper hinput) ?_
  rintro declared after _ ⟨hdeclared, _⟩
  refine Opens.bind (lift_keeps (passThrough_noReuse input)) fun others last hlast hothers => ?_
  obtain ⟨hkeys, hstrict⟩ := passThrough_ok hothers
  exact keeps_pure ((hdeclared.mono (ground.knows_mono hlast)).append hkeys hstrict)
termination_by (sizeOf input, 1, 2 * sizeOf fields + 1)
decreasing_by exact .right _ (.right _ (Nat.lt_succ_self _))

theorem buildDeclared_keeps (hground : ground.Sound) (path : String)
    (fields : List (String × Node)) (input : Object) (scope : Scope)
    {opened : List (String × DocId)} {work : Work} (hproper : (Node.nested fields).Proper)
    (hinput : ground.Permits (.nested fields) (.object input)) :
    Keeps ground opened work (buildDeclared path fields input scope) fun built after =>
      FieldsFit ground.context.registry (ground.Knows after) scope.strict [] fields built ∧
        ∀ key ∈ Object.keys built, key ∈ Fields.names fields := by
  match fields with
  | [] =>
    rw [buildDeclared]
    exact keeps_pure ⟨fieldsFit_nil (by simp), by simp [Object.keys]⟩
  | (name, node) :: rest =>
    rw [buildDeclared]
    have hnames := List.nodup_cons.mp hproper.names
    have hrest : (Node.nested rest).Proper :=
      .nested hnames.2 fun field hfield => hproper.field field (List.mem_cons_of_mem _ hfield)
    refine Opens.bind (buildField_keeps hground path name node input scope
      (hproper.field _ List.mem_cons_self) fun value hvalue =>
        hinput.field List.mem_cons_self (Object.mem_of_value? hvalue)) ?_
    intro built after _ hbuilt
    refine Opens.bind (buildDeclared_keeps hground path rest input scope hrest
      hinput.fewer_fields) ?_
    rintro others last hlast ⟨hothers, hkeys⟩
    have hfirst := hbuilt.mono (ground.knows_mono hlast)
    cases built with
    | none =>
      exact keeps_pure ⟨hothers.cons_none hnames.1 hfirst hkeys, fun key hkey =>
        List.mem_cons_of_mem _ (hkeys key hkey)⟩
    | some value =>
      refine keeps_pure ⟨hothers.cons_some hnames.1 hfirst hkeys, fun key hkey => ?_⟩
      rcases List.mem_cons.mp hkey with rfl | hin
      · exact List.mem_cons_self
      · exact List.mem_cons_of_mem _ (hkeys key hin)
termination_by (sizeOf input, 1, 2 * sizeOf fields)
decreasing_by
  all_goals simp only [List.cons.sizeOf_spec, Prod.mk.sizeOf_spec]
  all_goals exact .right _ (.right _ (by omega))

theorem buildField_keeps (hground : ground.Sound) (path name : String) (node : Node)
    (input : Object) (scope : Scope) {opened : List (String × DocId)} {work : Work}
    (hproper : node.Proper)
    (hinput : ∀ value, Object.value? input name = some value → ground.Permits node value) :
    Keeps ground opened work (buildField path name node input scope) fun built after =>
      FitsOrOmits ground.context.registry (ground.Knows after) scope.strict node built := by
  rw [buildField]
  split
  · next value hvalue =>
    have smaller := Object.sizeOf_lt_of_value?_eq_some hvalue
    refine buildValue_keeps hground (joinPath path name) node (some value) scope hproper ?_
    intro other hother
    cases hother
    exact hinput value hvalue
  · next hnone =>
    split
    · next owner howner =>
      unfold injected? at howner
      split at howner
      · split_ifs at howner with hcollection
        cases howner
        subst hcollection
        exact keeps_map (checkReference_keeps hground _ _ _)
      · cases howner
    · exact buildValue_keeps hground (joinPath path name) node none scope hproper (by rintro _ ⟨⟩)
termination_by (sizeOf input, 1, 2 * sizeOf node + 1)
decreasing_by
  · exact Prod.Lex.left _ _ (by simpa using smaller)
  · have positive : 1 ≤ sizeOf input := by cases input <;> simp; omega
    rcases Nat.lt_or_eq_of_le positive with more | same
    · exact Prod.Lex.left _ _ (by simpa using more)
    · rw [← same]
      exact Prod.Lex.right _ (Prod.Lex.right _ (by omega))

theorem mergeFields_keeps (hground : ground.Sound) (path : String) (fields : Fields)
    (target : Object) (patch : Object) (scope : Scope) (reserved : List String)
    {opened : List (String × DocId)} {work : Work} (hproper : (Node.nested fields).Proper)
    (hpatch : ground.Permits (.nested fields) (.object patch))
    (htarget : FieldsFit ground.context.registry (ground.Knows work) scope.strict reserved fields
      target) :
    Keeps ground opened work (mergeFields path fields target patch scope reserved)
      (Merged ground scope.strict reserved fields target) := by
  match patch with
  | [] =>
    rw [mergeFields]
    exact keeps_pure ⟨htarget, fun _ _ => rfl⟩
  | (key, value) :: rest =>
    rw [mergeFields]
    by_cases hreserved : reserved.contains key = true
    · rw [if_pos hreserved]
      exact mergeFields_keeps hground path fields target rest scope reserved hproper
        hpatch.less_input htarget
    rw [if_neg hreserved]
    have hkey : key ∉ reserved := fun hin => hreserved (List.contains_iff_mem.mpr hin)
    -- Setting the key leaves the reserved keys alone, and so does the rest of the patch.
    have hset : ∀ {middle : Work} {changed : Object},
        FieldsFit ground.context.registry (ground.Knows middle) scope.strict reserved fields
          changed →
        (∀ other ≠ key, Object.value? changed other = Object.value? target other) →
        Keeps ground opened middle (mergeFields path fields changed rest scope reserved)
          (Merged ground scope.strict reserved fields target) := by
      intro middle changed hchanged hsame
      refine (mergeFields_keeps hground path fields changed rest scope reserved hproper
        hpatch.less_input hchanged).mono fun merged after _ hmerged => ?_
      exact hmerged.of_changed fun other hother => hsame other fun heq => hkey (heq ▸ hother)
    split
    · next inner hnode =>
      have hin := Fields.mem_of_node? hnode
      split
      · next nestedPatch =>
        refine Opens.bind (mergeFields_keeps hground (joinPath path key) inner _ nestedPatch
          scope.nested [] (hproper.field _ hin) (hpatch.field hin List.mem_cons_self)
          (htarget.inner hnode hkey)) ?_
        rintro merged after hgrows ⟨hmerged, _⟩
        refine hset ((htarget.mono (ground.knows_mono hgrows)).put hproper.names hnode
          (fits_nested_iff.mpr hmerged)) fun other hne => ?_
        rw [Object.value?_put, if_neg (Ne.symm hne)]
      · exact mismatch_keeps
    · next node _ hnode =>
      have hin := Fields.mem_of_node? hnode
      refine Opens.bind (buildValue_keeps hground (joinPath path key) node (some value) scope
        (hproper.field _ hin) ?_) ?_
      · intro other hother
        cases hother
        exact hpatch.field hin List.mem_cons_self
      · intro built after hgrows hbuilt
        have hlater := htarget.mono (ground.knows_mono hgrows)
        cases built with
        | some built =>
          refine hset (hlater.put hproper.names hnode hbuilt) fun other hne => ?_
          rw [Object.value?_put, if_neg (Ne.symm hne)]
        | none =>
          refine hset (hlater.without hproper.names hnode hbuilt) fun other hne => ?_
          rw [Object.value?_without, if_neg hne]
    · next hnode =>
      by_cases hstrict : scope.strict = true
      · rw [if_pos hstrict]
        exact keeps_fail (by rintro ⟨⟩)
      · rw [if_neg hstrict]
        have hundeclared : key ∉ fields.names := by
          rw [← Fields.declares_iff]
          simp [Fields.declares, hnode]
        refine hset (htarget.put_other (Or.inl hundeclared) fun h => absurd h hstrict)
          fun other hne => ?_
        rw [Object.value?_put, if_neg (Ne.symm hne)]
termination_by (sizeOf patch, 1, 0)
decreasing_by
  all_goals subst_vars
  all_goals simp only [List.cons.sizeOf_spec, Prod.mk.sizeOf_spec, Option.some.sizeOf_spec,
    Value.object.sizeOf_spec]
  all_goals exact .left _ _ (by omega)

theorem buildValue_keeps (hground : ground.Sound) (path : String) (node : Node)
    (value? : Option Value) (scope : Scope) {opened : List (String × DocId)} {work : Work}
    (hproper : node.Proper) (hinput : ∀ value, value? = some value → ground.Permits node value) :
    Keeps ground opened work (buildValue path node value? scope) fun built after =>
      FitsOrOmits ground.context.registry (ground.Knows after) scope.strict node built := by
  match node with
  | .scalar kind rules =>
    unfold buildValue
    exact (lift_keeps Rules.castField_noReuse).mono fun _ _ _ h => fits_castField h
  | .array rules =>
    unfold buildValue
    exact buildUntyped_keeps
  | .reference collection kind required =>
    unfold buildValue
    split
    · exact absent_keeps (.reference collection kind required) (by simp)
    · exact keepNull_keeps (.reference collection kind required) rfl
    · next value _ =>
      exact keeps_map (buildReference_keeps hground path collection value _ _ _
        ((hinput value rfl).retarget rfl))
  | .document collection required =>
    unfold buildValue
    split
    · exact absent_keeps (.document collection required) (by simp)
    · exact keepNull_keeps (.document collection required) rfl
    · next input =>
      refine Opens.bind (embedDocument_keeps hground path collection input (some scope.owner)
        ((hinput _ rfl).retarget rfl)) ?_
      rintro document after _ ⟨id, _, hbuilt⟩
      obtain ⟨tree, htree, hconforms⟩ := hbuilt.conform
      exact keeps_pure (hconforms.fits htree)
    · exact mismatch_keeps
  | .list element =>
    unfold buildValue
    split
    · exact keeps_pure (Node.Omissible.field (by simp) rfl)
    · exact keeps_pure (Fits.list (by simp))
    · next items =>
      refine Opens.bind (buildItems_keeps hground path element items scope hproper.element
        (hinput _ rfl).item) ?_
      exact fun built after _ hbuilt => keeps_pure (Fits.list hbuilt)
    · exact mismatch_keeps
  | .nested fields =>
    match value?, hinput with
    | none, _ | some .null, _ =>
      rw [buildValue]
      exact unlessEmpty_keeps (buildFields_keeps hground path fields [] scope.nested [] hproper
        .nothing)
    | some (.object input), hinput =>
      rw [buildValue]
      refine Opens.bind (buildFields_keeps hground path fields input scope.nested [] hproper
        (hinput _ rfl)) ?_
      exact fun built after _ hbuilt => keeps_pure (fits_nested_iff.mpr hbuilt)
    | some (.bool _), _ | some (.number _), _ | some (.string _), _ | some (.array _), _ =>
      unfold buildValue
      exact mismatch_keeps
termination_by (sizeOf value?, 1, 2 * sizeOf node)
decreasing_by
  all_goals subst_vars
  all_goals simp only [Option.some.sizeOf_spec, Value.object.sizeOf_spec, Value.array.sizeOf_spec,
    Node.nested.sizeOf_spec]
  · exact .left _ _ (by omega)
  · exact .left _ _ (by omega)
  · exact .left _ _ (by omega)
  -- The fields of an absent object are built from no input.
  · exact .right _ (.right _ (by omega))
  · exact .left _ _ (by decide)
  · exact .left _ _ (by omega)

theorem buildItems_keeps (hground : ground.Sound) (path : String) (element : Element)
    (items : List Value) (scope : Scope) {opened : List (String × DocId)} {work : Work}
    (hproper : element.asNode.Proper)
    (hitems : ∀ item ∈ items, ground.Permits element.asNode item) :
    Keeps ground opened work (buildItems path element items scope) fun built after =>
      ∀ item ∈ built,
        Fits ground.context.registry (ground.Knows after) scope.strict element.asNode item := by
  match element with
  | .any =>
    rw [buildItems]
    exact keeps_pure fun _ _ => fits_any
  | .scalar kind rules =>
    rw [buildItems]
    exact (lift_keeps (castItems_noReuse items)).mono fun _ _ _ h => castItems_ok h
  | .reference collection kind =>
    rw [buildItems]
    refine Opens.bind (buildReferences_keeps hground path collection 0 items scope.strict kind false
      fun item hitem => (hitems item hitem).retarget rfl) fun built after _ hbuilt => ?_
    exact keeps_pure fun item hitem => hbuilt item (mem_collapse hitem)
  | .document collection =>
    rw [buildItems]
    refine Opens.bind (buildDocuments_keeps hground path collection 0 items scope scope.strict
      hitems) fun built after _ hbuilt => ?_
    exact keeps_pure fun item hitem => hbuilt item (mem_collapse hitem)
  | .object fields =>
    rw [buildItems]
    exact buildObjects_keeps hground path fields 0 items scope hproper hitems
  | .list inner =>
    rw [buildItems]
    exact buildRows_keeps hground path inner 0 items scope hproper.element hitems
termination_by (sizeOf items, 1, sizeOf element)
decreasing_by all_goals exact .right _ (.left _ _ (by decide))

theorem buildReferences_keeps (hground : ground.Sound) (path collection : String) (index : Nat)
    (items : List Value) (strict : Bool) (kind : IdKind) (required : Bool)
    {opened : List (String × DocId)} {work : Work}
    (hitems : ∀ item ∈ items, ground.Permits (.document collection false) item) :
    Keeps ground opened work (buildReferences path collection index items) fun built after =>
      ∀ item ∈ built, Fits ground.context.registry (ground.Knows after) strict
        (.reference collection kind required) item := by
  match items with
  | [] =>
    rw [buildReferences]
    exact keeps_pure (by simp)
  | item :: rest =>
    rw [buildReferences]
    refine Opens.bind (buildReference_keeps hground (itemPath path index) collection item strict
      kind required (hitems item List.mem_cons_self)) fun first after _ hfirst => ?_
    refine Opens.bind (buildReferences_keeps hground path collection (index + 1) rest strict kind
      required fun item hitem => hitems item (List.mem_cons_of_mem _ hitem))
      fun others last hlast hothers => ?_
    have hkept := hfirst.mono (ground.knows_mono hlast)
    exact keeps_pure (List.forall_mem_cons.mpr ⟨hkept, hothers⟩)
termination_by (sizeOf items, 0, 0)
decreasing_by
  all_goals simp only [List.cons.sizeOf_spec]
  all_goals exact .left _ _ (by omega)

theorem buildDocuments_keeps (hground : ground.Sound) (path collection : String) (index : Nat)
    (items : List Value) (scope : Scope) (strict : Bool) {opened : List (String × DocId)}
    {work : Work} (hitems : ∀ item ∈ items, ground.Permits (.document collection false) item) :
    Keeps ground opened work (buildDocuments path collection index items scope) fun built after =>
      ∀ item ∈ built, Fits ground.context.registry (ground.Knows after) strict
        (.document collection false) item := by
  match items with
  | [] =>
    rw [buildDocuments]
    exact keeps_pure (by simp)
  | .object input :: rest =>
    rw [buildDocuments]
    refine Opens.bind (embedDocument_keeps hground (itemPath path index) collection input
      (some scope.owner) (hitems _ List.mem_cons_self)) ?_
    rintro document after _ ⟨id, _, hbuilt⟩
    obtain ⟨tree, htree, hconforms⟩ := hbuilt.conform
    refine Opens.bind (buildDocuments_keeps hground path collection (index + 1) rest scope strict
      fun item hitem => hitems item (List.mem_cons_of_mem _ hitem))
      fun others last hlast hothers => ?_
    have hkept := hconforms.mono (ground.knows_mono hlast)
    exact keeps_pure (List.forall_mem_cons.mpr ⟨hkept.fits htree, hothers⟩)
  | .null :: _ | .bool _ :: _ | .number _ :: _ | .string _ :: _ | .array _ :: _ =>
    unfold buildDocuments
    exact mismatch_keeps
termination_by (sizeOf items, 0, 0)
decreasing_by
  all_goals simp only [List.cons.sizeOf_spec, Value.object.sizeOf_spec]
  all_goals exact .left _ _ (by omega)

theorem buildObjects_keeps (hground : ground.Sound) (path : String) (fields : Fields) (index : Nat)
    (items : List Value) (scope : Scope) {opened : List (String × DocId)} {work : Work}
    (hproper : (Node.nested fields).Proper)
    (hitems : ∀ item ∈ items, ground.Permits (.nested fields) item) :
    Keeps ground opened work (buildObjects path fields index items scope) fun built after =>
      ∀ item ∈ built,
        Fits ground.context.registry (ground.Knows after) scope.strict (.nested fields) item := by
  match items with
  | [] =>
    rw [buildObjects]
    exact keeps_pure (by simp)
  | .object input :: rest =>
    rw [buildObjects]
    refine Opens.bind (buildFields_keeps hground (itemPath path index) fields input scope.element []
      hproper (hitems _ List.mem_cons_self)) fun first after _ hfirst => ?_
    refine Opens.bind (buildObjects_keeps hground path fields (index + 1) rest scope hproper
      fun item hitem => hitems item (List.mem_cons_of_mem _ hitem))
      fun others last hlast hothers => ?_
    have hkept := hfirst.mono (ground.knows_mono hlast)
    exact keeps_pure (List.forall_mem_cons.mpr ⟨fits_nested_iff.mpr hkept, hothers⟩)
  | .null :: _ | .bool _ :: _ | .number _ :: _ | .string _ :: _ | .array _ :: _ =>
    unfold buildObjects
    exact mismatch_keeps
termination_by (sizeOf items, 0, 0)
decreasing_by
  all_goals simp only [List.cons.sizeOf_spec, Value.object.sizeOf_spec]
  all_goals exact .left _ _ (by omega)

theorem buildRows_keeps (hground : ground.Sound) (path : String) (element : Element) (index : Nat)
    (items : List Value) (scope : Scope) {opened : List (String × DocId)} {work : Work}
    (hproper : element.asNode.Proper)
    (hitems : ∀ item ∈ items, ground.Permits (.list element) item) :
    Keeps ground opened work (buildRows path element index items scope) fun built after =>
      ∀ item ∈ built,
        Fits ground.context.registry (ground.Knows after) scope.strict (.list element) item := by
  match items with
  | [] =>
    rw [buildRows]
    exact keeps_pure (by simp)
  | .array row :: rest =>
    rw [buildRows]
    refine Opens.bind (buildItems_keeps hground (itemPath path index) element row scope hproper
      (hitems _ List.mem_cons_self).item) fun first after _ hfirst => ?_
    refine Opens.bind (buildRows_keeps hground path element (index + 1) rest scope hproper
      fun item hitem => hitems item (List.mem_cons_of_mem _ hitem))
      fun others last hlast hothers => ?_
    have hkept : Fits _ _ scope.strict (.list element) (.array first) :=
      .list fun item hitem => (hfirst item hitem).mono (ground.knows_mono hlast)
    exact keeps_pure (List.forall_mem_cons.mpr ⟨hkept, hothers⟩)
  | .null :: _ | .bool _ :: _ | .number _ :: _ | .string _ :: _ | .object _ :: _ =>
    unfold buildRows
    exact mismatch_keeps
termination_by (sizeOf items, 0, 0)
decreasing_by
  all_goals simp only [List.cons.sizeOf_spec, Value.array.sizeOf_spec]
  all_goals exact .left _ _ (by omega)

theorem buildReference_keeps (hground : ground.Sound) (path collection : String) (value : Value)
    (strict : Bool) (kind : IdKind) (required : Bool) {opened : List (String × DocId)}
    {work : Work} (hinput : ground.Permits (.document collection false) value) :
    Keeps ground opened work (buildReference path collection value) fun built after =>
      Fits ground.context.registry (ground.Knows after) strict
        (.reference collection kind required) built := by
  unfold buildReference
  split_ifs
  · exact checkReference_keeps hground path collection value
  · match value with
    | .object input =>
      refine Opens.bind (embedDocument_keeps hground path collection input none hinput) ?_
      rintro document after _ ⟨id, htaken, hbuilt⟩
      rw [hbuilt.id]
      exact keeps_pure (.reference (Or.inr (Or.inr htaken)))
    | .null | .bool _ | .number _ | .string _ | .array _ => exact mismatch_keeps
termination_by (sizeOf value, 0, 0)
decreasing_by exact .left _ _ (by simp only [Value.object.sizeOf_spec]; omega)

theorem embedDocument_keeps (hground : ground.Sound) (path collection : String) (input : Object)
    (inject : Option Owner) {opened : List (String × DocId)} {work : Work}
    (hinput : ground.Permits (.document collection false) (.object input)) :
    Keeps ground opened work (embedDocument path collection input inject)
      (Made ground collection) := by
  rw [embedDocument]
  split
  · exact createEmbedded_keeps hground path collection input inject hinput
  · exact createEmbedded_keeps hground path collection input inject hinput
  · refine Opens.bind (space_keeps hground collection) ?_
    rintro space after _ ⟨hin, hcollection, _⟩
    refine Opens.bind (lift_keeps IdSpace.cast_noReuse) fun id casting hcasting _ => ?_
    by_cases hcontains : space.contains id = true
    · rw [if_pos hcontains]
      have htaken : casting.Taken collection id :=
        hcasting _ _ ⟨space, hin, hcollection, IdSpace.contains_iff.mp hcontains⟩
      refine Opens.bind (lookup_keeps hground collection id) fun stored middle hmiddle hstored => ?_
      by_cases hsame : changesNothing input stored = true
      · rw [if_pos hsame]
        exact keeps_pure ⟨id, hmiddle _ _ htaken, hstored⟩
      · rw [if_neg hsame]
        refine Opens.bind (updateDocument_keeps hground path collection stored input hstored hinput)
          fun document last hlast hbuilt => ?_
        have htaken' := hlast _ _ (hmiddle _ _ htaken)
        refine Opens.bind (push_opens (fun _ h => Or.inr h) htaken' hbuilt) fun _ _ hpushed _ => ?_
        exact keeps_pure ⟨id, hpushed _ _ htaken', hbuilt.mono hpushed⟩
    · rw [if_neg hcontains]
      exact createEmbedded_keeps hground path collection input inject hinput
termination_by (sizeOf input, 4, 0)
decreasing_by all_goals exact .right _ (.left _ _ (by decide))

theorem createEmbedded_keeps (hground : ground.Sound) (path collection : String) (input : Object)
    (inject : Option Owner) {opened : List (String × DocId)} {work : Work}
    (hinput : ground.Permits (.document collection false) (.object input)) :
    Keeps ground opened work (createEmbedded path collection input inject)
      (Made ground collection) := by
  rw [createEmbedded]
  refine Opens.bind (insertDocument_opens hground path collection input inject hinput) ?_
  rintro document after _ ⟨id, htaken, hbuilt⟩
  have hopening : ∀ other ∈ opening collection opened document,
      other = (collection, id) ∨ other ∈ opened := by
    intro other hother
    simpa [opening, hbuilt.id] using hother
  refine Opens.bind (push_opens hopening htaken hbuilt) fun _ _ hpushed _ => ?_
  exact keeps_pure ⟨id, hpushed _ _ htaken, hbuilt.mono hpushed⟩
termination_by (sizeOf input, 3, 0)
decreasing_by exact .right _ (.left _ _ (by decide))

end

end Builder

end Build

end DocumentDb
