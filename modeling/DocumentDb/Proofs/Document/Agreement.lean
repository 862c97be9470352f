import DocumentDb.Proofs.Document.Composition
import DocumentDb.Proofs.Document.Soundness

/-!
# Building from alike work

Two works are *alike* if the same documents wait in them, the same number of random texts was drawn,
and whichever space a step asks for, it finds alike spaces in both: the one that was looked at
before, or the one that the store gives. So it does not matter which spaces were looked at before
and in which order their ids were taken. Building the same from alike work gives the same documents,
or the same error, and leaves alike work behind (`Composed.agrees`), at any times if no collection
keeps times.
-/

namespace DocumentDb

/-! ### Matching results -/

/-- **Two results match**: they are related values or the same error. -/
inductive Matches {α β : Type} (related : α → β → Prop) : Except Error α → Except Error β → Prop
  | ok {a : α} {b : β} (h : related a b) : Matches related (.ok a) (.ok b)
  | error {e : Error} : Matches related (.error e) (.error e)

section Matches
variable {α β : Type} {related : α → β → Prop}

theorem matches_refl {related : α → α → Prop} (h : ∀ a, related a a) (result : Except Error α) :
    Matches related result result := by
  cases result with
  | ok a => exact .ok (h a)
  | error e => exact .error

theorem Matches.eq {result other : Except Error α} (h : Matches Eq result other) :
    result = other := by
  cases h with
  | ok h => rw [h]
  | error => rfl

end Matches

/-! ### Alike spaces -/

/-- A collection keeps no times of its documents. -/
def Tree.Timeless (tree : Tree) : Prop :=
  tree.settings.createdAt = false ∧ tree.settings.updatedAt = false

/-- No collection keeps times of its documents. -/
def Registry.Timeless (registry : Registry) : Prop := ∀ tree ∈ registry.trees, tree.Timeless

/-- **Two spaces are alike**: they differ in the order of their ids at most, and in counters that
hand out no numbers. The size of shards is that of the store. -/
structure IdSpace.Alike (context : Context) (space other : IdSpace) : Prop where
  collection : space.collection = other.collection
  rule : space.rule = other.rule
  count : space.rule.kind = .incr → space.count = other.count
  recorded : space.recorded = other.recorded
  ids : ∀ id, id ∈ space.ids ↔ id ∈ other.ids
  shardMax : space.shardMax = other.shardMax
  measured : ∀ state, context.state space.collection = .ok state → space.shardMax = state.shardMax

namespace IdSpace

section Alike
variable {context : Context} {space other : IdSpace} {field : String} {value : Value}

theorem Alike.symm (h : space.Alike context other) : other.Alike context space where
  collection := h.collection.symm
  rule := h.rule.symm
  count := by
    rw [← h.rule]
    exact fun hkind => (h.count hkind).symm
  recorded := h.recorded.symm
  ids id := (h.ids id).symm
  shardMax := h.shardMax.symm
  measured state := by
    rw [← h.collection, ← h.shardMax]
    exact h.measured state

theorem Alike.contains (h : space.Alike context other) (id : DocId) :
    space.contains id = other.contains id := by
  rw [Bool.eq_iff_iff, contains_iff, contains_iff]
  exact h.ids id

theorem Alike.cast (h : space.Alike context other) :
    space.cast field value = other.cast field value := by
  unfold IdSpace.cast
  rw [h.rule]

theorem Alike.existing (h : space.Alike context other) :
    space.existing field value = other.existing field value := by
  unfold IdSpace.existing
  simp only [h.cast, h.contains, h.collection]

theorem Alike.checkReference (h : space.Alike context other) :
    space.checkReference field value = other.checkReference field value := by
  unfold IdSpace.checkReference
  simp only [h.existing, h.collection]

/-- Taking the same id from alike spaces. -/
theorem Alike.claimed (h : space.Alike context other) (id : DocId) :
    (space.claimed id).Alike context (other.claimed id) where
  collection := by rw [claimed_collection, claimed_collection, h.collection]
  rule := by rw [claimed_rule, claimed_rule, h.rule]
  count := by
    rw [claimed_rule]
    intro hkind
    cases id with
    | number n => exact congrArg (max · n) (h.count hkind)
    | text s => exact h.count hkind
  recorded := by rw [claimed_recorded, claimed_recorded, h.recorded]
  ids other := by rw [claimed_ids, claimed_ids, List.mem_cons, List.mem_cons, h.ids]
  shardMax := by cases id <;> exact h.shardMax
  measured state := by
    rw [claimed_collection]
    intro hstate
    have hmeasured := h.measured state hstate
    cases id <;> exact hmeasured

/-- The same id is taken from alike spaces. -/
def Alike.Taking (context : Context) (taken other : DocId × IdSpace) : Prop :=
  taken.1 = other.1 ∧ taken.2.Alike context other.2

theorem Alike.claim (h : space.Alike context other) :
    Matches (Alike.Taking context) (space.claim field value) (other.claim field value) := by
  unfold IdSpace.claim IdSpace.unused
  rw [← h.cast]
  cases space.cast field value with
  | error e => exact .error
  | ok id =>
    simp only [bind, Except.bind, ← h.contains, ← h.collection]
    split_ifs
    · exact .error
    · exact .ok ⟨rfl, h.claimed id⟩

theorem Alike.generateText (h : space.Alike context other) (source : IdSource)
    (length tries drawn : Nat) :
    Matches (Alike.Taking context) (space.generateText source length tries drawn).1
        (other.generateText source length tries drawn).1 ∧
      (space.generateText source length tries drawn).2 =
        (other.generateText source length tries drawn).2 := by
  induction tries generalizing drawn with
  | zero =>
    simp only [IdSpace.generateText, h.collection]
    exact ⟨.error, trivial⟩
  | succ tries ih =>
    simp only [IdSpace.generateText, ← h.contains]
    split_ifs
    · exact ih (drawn + 1)
    · exact ⟨.ok ⟨rfl, h.claimed (.text (source drawn length))⟩, rfl⟩

/-- The same id is generated from alike spaces. -/
theorem Alike.generate (h : space.Alike context other) (source : IdSource) (drawn : Nat) :
    Matches (Alike.Taking context) (space.generate source drawn).1 (other.generate source drawn).1 ∧
      (space.generate source drawn).2 = (other.generate source drawn).2 := by
  unfold IdSpace.generate
  rw [← h.rule]
  cases hrule : space.rule with
  | uid least most => exact h.generateText source _ _ drawn
  | incr most =>
    refine ⟨?_, rfl⟩
    have hcount : space.count = other.count := h.count (by rw [hrule]; rfl)
    dsimp only [IdSpace.generateNumber]
    rw [← hcount, ← h.contains, ← h.collection]
    split_ifs
    · exact .error
    · exact .error
    · have htaken : ∀ first : IdSpace, first.count = space.count →
          { first.take (.number (space.count + 1)) with count := space.count + 1 } =
            first.claimed (.number (space.count + 1)) := by
        intro first hfirst
        simp [IdSpace.claimed, hfirst]
      rw [htaken space rfl, htaken other hcount.symm]
      exact .ok ⟨rfl, h.claimed (.number (space.count + 1))⟩

end Alike

end IdSpace

/-! ### Alike work -/

namespace Work

/-- The space of a collection as a step finds it: the one that was looked at, or the one that the
store gives. -/
def found (context : Context) (work : Work) (collection : String) : Except Error IdSpace :=
  match work.space? collection with
  | some space => .ok space
  | none => do
    let tree ← context.registry.tree collection
    let state ← context.state collection
    pure (IdSpace.ofState tree state)

/-- **Two works are alike** for all that a step can do with them. -/
structure Alike (context : Context) (work other : Work) : Prop where
  pending : work.pending = other.pending
  drawn : work.drawn = other.drawn
  found : ∀ collection, Matches (IdSpace.Alike context) (work.found context collection)
    (other.found context collection)

section Found
variable {context : Context} {work other : Work} {space new : IdSpace} {collection : String}

theorem found_put :
    (work.put new).found context collection =
      if new.collection = collection then .ok new else work.found context collection := by
  unfold found
  rw [space?_put]
  split_ifs <;> rfl

/-- A space that is found is that of its collection. -/
theorem found_collection (h : work.found context collection = .ok space) :
    space.collection = collection := by
  unfold found at h
  split at h
  · next hspace =>
    cases h
    exact (space?_some hspace).2
  · obtain ⟨tree, htree, h⟩ := bind_ok_iff.mp h
    obtain ⟨state, _, h⟩ := bind_ok_iff.mp h
    cases h
    exact Registry.tree?_collection (Registry.tree_ok_iff.mp htree)

/-- Setting a space that was found changes nothing that can be found. -/
theorem found_put_found (h : work.found context collection = .ok space) :
    (work.put space).found context = work.found context := by
  funext name
  rw [found_put]
  split_ifs with heq
  · rw [← heq, found_collection h, h]
  · rfl

theorem Alike.put (h : work.Alike context other) {new' : IdSpace} (hnew : new.Alike context new') :
    (work.put new).Alike context (other.put new') where
  pending := h.pending
  drawn := h.drawn
  found collection := by
    rw [found_put, found_put, ← hnew.collection]
    split_ifs
    · exact .ok hnew
    · exact h.found collection

theorem Alike.draw (h : work.Alike context other) (drawn : Nat) :
    ({ work with drawn } : Work).Alike context { other with drawn } where
  pending := h.pending
  drawn := rfl
  found := h.found

theorem Alike.push (h : work.Alike context other) (collection : String) (document : Document) :
    (work.push collection document).Alike context (other.push collection document) where
  pending := congrArg (· ++ [(⟨collection, document⟩ : PendingWrite)]) h.pending
  drawn := h.drawn
  found := h.found

end Found

end Work

/-! ### Steps that agree -/

namespace Build

section Steps
variable {context : Context} {now : Instant} {α β γ δ : Type} {related : α → β → Prop}
  {collection path : String}

/-- **Two steps agree**: from alike work they give results that match, and leave alike work behind.
The second is taken at a time of its own. -/
def Agrees (context : Context) (now : Instant) (related : α → β → Prop) (step : Build α)
    (other : Build β) : Prop :=
  ∀ work work' : Work, work.Alike context work' →
    Matches related (step context work).1 (other { context with now } work').1 ∧
      (step context work).2.Alike context (other { context with now } work').2

/-- A step that agrees with itself. -/
abbrev AgreesAlone (context : Context) (now : Instant) (step : Build α) : Prop :=
  Agrees context now Eq step step

theorem Agrees.bind {first : Build α} {first' : Build β} {next : α → Build γ} {next' : β → Build δ}
    {related' : γ → δ → Prop} (hfirst : Agrees context now related first first')
    (hnext : ∀ a b, related a b → Agrees context now related' (next a) (next' b)) :
    Agrees context now related' (first >>= next) (first' >>= next') := by
  intro work work' h
  obtain ⟨hresult, hafter⟩ := hfirst work work' h
  rw [bind_eq, bind_eq]
  rcases hstep : first context work with ⟨result, after⟩
  rcases hstep' : first' { context with now } work' with ⟨result', after'⟩
  rw [hstep, hstep'] at hresult hafter
  cases hresult with
  | ok hrelated => exact hnext _ _ hrelated _ _ hafter
  | error => exact ⟨.error, hafter⟩

/-- A step that agrees with itself and then others for each of its values. -/
theorem Agrees.then {first : Build α} {next : α → Build γ} {next' : α → Build δ}
    {related' : γ → δ → Prop} (hfirst : AgreesAlone context now first)
    (hnext : ∀ a, Agrees context now related' (next a) (next' a)) :
    Agrees context now related' (first >>= next) (first >>= next') :=
  hfirst.bind fun a _ h => h ▸ hnext a

theorem agrees_lift {result : Except Error α} {result' : Except Error β}
    (h : Matches related result result') :
    Agrees context now related (lift result) (lift result') := fun _ _ halike => ⟨h, halike⟩

theorem agreesAlone_lift {result : Except Error α} : AgreesAlone context now (lift result) :=
  agrees_lift (matches_refl (fun _ => rfl) result)

theorem agrees_pure {a : α} {b : β} (h : related a b) :
    Agrees context now related (pure a) (pure b) := agrees_lift (.ok h)

theorem read_agrees : Agrees context now
    (fun first second => first = context ∧ second = { context with now })
    (read : Build Context) (read : Build Context) := fun _ _ h => ⟨.ok ⟨rfl, rfl⟩, h⟩

theorem get_agrees : Agrees context now (Work.Alike context) (get : Build Work)
    (get : Build Work) := fun _ _ h => ⟨.ok h, h⟩

theorem modify_agrees {change change' : Work → Work}
    (h : ∀ work work', work.Alike context work' → (change work).Alike context (change' work')) :
    Agrees context now Eq (modify change : Build Unit) (modify change') :=
  fun work work' halike => ⟨.ok rfl, h work work' halike⟩

/-- A schema that was looked at is that of its collection. -/
theorem tree_agrees : Agrees context now
    (fun tree other => tree = other ∧ context.registry.tree? collection = some tree)
    (tree collection) (tree collection) := by
  refine read_agrees.bind fun _ _ h => ?_
  rw [h.1, h.2]
  refine agrees_lift ?_
  cases htree : context.registry.tree collection with
  | error e => exact .error
  | ok tree => exact .ok ⟨rfl, Registry.tree_ok_iff.mp htree⟩

/-- Looking at a space finds it and changes nothing that can be found. -/
theorem space_eq (collection : String) (context : Context) (work : Work) :
    (space collection context work).1 = work.found context collection ∧
      (space collection context work).2.pending = work.pending ∧
      (space collection context work).2.drawn = work.drawn ∧
      (space collection context work).2.found context = work.found context := by
  have htree : tree collection context work = (context.registry.tree collection, work) := rfl
  have hread : (read : Build Context) context work = (.ok context, work) := rfl
  have hstate : (lift (context.state collection) : Build StoreState) context work =
      (context.state collection, work) := rfl
  rw [space_step]
  cases hspace : work.space? collection with
  | some space =>
    have hfound : work.found context collection = .ok space := by
      unfold Work.found
      rw [hspace]
    exact ⟨hfound.symm, rfl, rfl, rfl⟩
  | none =>
    have hfound : work.found context collection = (do
        let tree ← context.registry.tree collection
        let state ← context.state collection
        pure (IdSpace.ofState tree state)) := by
      unfold Work.found
      rw [hspace]
    dsimp only
    rw [bind_eq, htree]
    cases hregistry : context.registry.tree collection with
    | error e =>
      rw [hregistry] at hfound
      exact ⟨hfound.symm, rfl, rfl, rfl⟩
    | ok tree =>
      dsimp only
      rw [bind_of_ok hread, bind_eq, hstate]
      cases hcontext : context.state collection with
      | error e =>
        rw [hregistry, hcontext] at hfound
        exact ⟨hfound.symm, rfl, rfl, rfl⟩
      | ok state =>
        rw [hregistry, hcontext] at hfound
        exact ⟨hfound.symm, rfl, rfl, Work.found_put_found hfound⟩

/-- Alike spaces are found in alike work. -/
theorem space_agrees : Agrees context now (IdSpace.Alike context) (space collection)
    (space collection) := by
  intro work work' h
  obtain ⟨hresult, hpending, hdrawn, hfound⟩ := space_eq collection context work
  obtain ⟨hresult', hpending', hdrawn', hfound'⟩ :=
    space_eq collection { context with now } work'
  have hsame : ∀ work : Work, work.found { context with now } = work.found context := fun _ => rfl
  rw [hsame] at hfound' hresult'
  rw [hsame] at hfound'
  refine ⟨?_, ?_, ?_, fun name => ?_⟩
  · rw [hresult, hresult']
    exact h.found collection
  · rw [hpending, hpending', h.pending]
  · rw [hdrawn, hdrawn', h.drawn]
  · rw [hfound, hfound']
    exact h.found name

/-- Setting the space of an id that was taken. -/
theorem put_taken_agrees {taken taken' : DocId × IdSpace}
    (h : IdSpace.Alike.Taking context taken taken') :
    Agrees context now Eq
      (do let (id, space) := taken; modify (·.put space); pure id : Build DocId)
      (do let (id, space) := taken'; modify (·.put space); pure id) := by
  obtain ⟨id, space⟩ := taken
  obtain ⟨id', space'⟩ := taken'
  obtain ⟨rfl, hspace⟩ := h
  exact (modify_agrees fun _ _ halike => halike.put hspace).bind fun _ _ _ => agrees_pure rfl

theorem generateId_agrees : AgreesAlone context now (generateId collection) := by
  refine space_agrees.bind fun space space' hspace => ?_
  refine read_agrees.bind fun first second hcontexts => ?_
  refine get_agrees.bind fun work work' halike => ?_
  obtain ⟨rfl, rfl⟩ := hcontexts
  rw [← halike.drawn]
  obtain ⟨hresult, hdrawn⟩ := hspace.generate first.source work.drawn
  dsimp only
  rw [← hdrawn]
  refine (modify_agrees fun _ _ halike => halike.draw _).bind fun _ _ _ => ?_
  exact (agrees_lift hresult).bind fun _ _ htaken => put_taken_agrees htaken

theorem claimId_agrees {field : String} {value : Value} :
    AgreesAlone context now (claimId collection field value) := by
  refine space_agrees.bind fun space space' hspace => ?_
  exact (agrees_lift hspace.claim).bind fun _ _ htaken => put_taken_agrees htaken

theorem newId_agrees {input : Object} : AgreesAlone context now (newId path collection input) := by
  unfold newId
  split
  · exact generateId_agrees
  · exact generateId_agrees
  · exact claimId_agrees

theorem lookup_agrees {id : DocId} : AgreesAlone context now (lookup collection id) := by
  refine get_agrees.bind fun work work' halike => ?_
  have hpending : work.pendingDocument? collection id = work'.pendingDocument? collection id := by
    unfold Work.pendingDocument?
    rw [halike.pending]
  rw [← hpending]
  split
  · exact agrees_pure rfl
  · refine read_agrees.bind fun first second hcontexts => ?_
    rw [hcontexts.1, hcontexts.2]
    refine agreesAlone_lift.then fun found => ?_
    split
    · exact agrees_pure rfl
    · exact agreesAlone_lift

theorem push_agrees {document : Document} : AgreesAlone context now (push collection document) :=
  modify_agrees fun _ _ halike => halike.push collection document

theorem checkSize_agrees {document : Document} :
    AgreesAlone context now (checkSize collection document) := by
  refine space_agrees.bind fun space space' hspace => ?_
  rw [← hspace.shardMax]
  dsimp only
  split_ifs
  · exact agreesAlone_lift
  · exact agrees_pure rfl

theorem checkReference_agrees {value : Value} :
    AgreesAlone context now (checkReference path collection value) := by
  refine space_agrees.bind fun space space' hspace => ?_
  rw [hspace.checkReference]
  exact agreesAlone_lift

end Steps

/-! ### The builder -/

section Builder
variable {context : Context} {now : Instant} {α : Type} {path collection : String} {input : Object}
  (htimeless : context.registry.Timeless)

theorem Registry.Timeless.tree? {registry : Registry} (h : registry.Timeless) {tree : Tree}
    (htree : registry.tree? collection = some tree) : tree.Timeless :=
  h tree (List.mem_of_find?_eq_some htree)

theorem stampNew_timeless {tree : Tree} (h : tree.Timeless) (now : Instant) (document : Document) :
    stampNew tree now document = document := by
  simp [stampNew, h.1, h.2]

theorem stampChanged_timeless {tree : Tree} (h : tree.Timeless) (now : Instant)
    (document : Document) : stampChanged tree now document = document := by
  simp [stampChanged, h.2]

include htimeless

/-- Building a new document agrees if building its fields does. -/
theorem insertDocument_agrees {inject : Option Owner}
    (hfields : ∀ tree, context.registry.tree? collection = some tree → ∀ path scope reserved,
      AgreesAlone context now (buildFields path tree.fields input scope reserved)) :
    AgreesAlone context now (insertDocument path collection input inject) := by
  rw [insertDocument]
  refine tree_agrees.bind fun tree other htree => ?_
  obtain ⟨rfl, htree⟩ := htree
  refine newId_agrees.then fun id => (hfields tree htree _ _ _).then fun fields => ?_
  refine read_agrees.bind fun _ _ _ => ?_
  simp only [stampNew_timeless (Registry.Timeless.tree? htimeless htree)]
  exact checkSize_agrees.then fun _ => agrees_pure rfl

/-- Changing a document agrees if applying the patch does. -/
theorem updateDocument_agrees {existing : Document}
    (hfields : ∀ tree, context.registry.tree? collection = some tree →
      ∀ path target scope reserved,
        AgreesAlone context now (mergeFields path tree.fields target input scope reserved)) :
    AgreesAlone context now (updateDocument path collection existing input) := by
  rw [updateDocument]
  refine tree_agrees.bind fun tree other htree => ?_
  obtain ⟨rfl, htree⟩ := htree
  split
  · exact agreesAlone_lift
  · refine agreesAlone_lift.then fun _ => (hfields tree htree _ _ _ _).then fun merged => ?_
    refine read_agrees.bind fun _ _ _ => ?_
    simp only [stampChanged_timeless (Registry.Timeless.tree? htimeless htree)]
    exact checkSize_agrees.then fun _ => agrees_pure rfl

/-- **Building agrees** with itself at another time. -/
theorem Composed.agrees {step : Build α}
    (h : Composed context.registry (fun _ _ => False) (fun _ _ => True) step) :
    AgreesAlone context now step := by
  induction h with
  | lift => exact agreesAlone_lift
  | bind _ _ hfirst hnext => exact hfirst.then hnext
  | checkReference => exact checkReference_agrees
  | @embed path collection input inject _ _ _ hnew hchanged =>
    rw [embedDocument]
    have hcreate : AgreesAlone context now (createEmbedded path collection input inject) := by
      rw [createEmbedded]
      refine (insertDocument_agrees htimeless (hnew not_false)).then fun document => ?_
      exact push_agrees.then fun _ => agrees_pure rfl
    split
    · exact hcreate
    · exact hcreate
    · refine space_agrees.bind fun space space' hspace => ?_
      rw [← hspace.cast]
      refine agreesAlone_lift.then fun id => ?_
      rw [← hspace.contains]
      split_ifs
      · refine lookup_agrees.then fun stored => ?_
        split_ifs
        · exact agrees_pure rfl
        · refine (updateDocument_agrees htimeless (hchanged not_false)).then fun document => ?_
          exact push_agrees.then fun _ => agrees_pure rfl
      · exact hcreate

omit htimeless in
theorem inputObject_agrees {raw : Value} :
    AgreesAlone context now (inputObject collection raw) := by
  unfold inputObject
  split
  · exact agrees_pure rfl
  · exact agreesAlone_lift

/-- **Changing a document agrees.** -/
theorem change_agrees {existing : Document} {raw : Value} :
    AgreesAlone context now (change collection existing raw) :=
  inputObject_agrees.then fun _ => updateDocument_agrees htimeless fun _ _ _ _ _ _ =>
    (mergeFields_composed _ _ _ _ _ _ fun _ _ _ => trivial).agrees htimeless

end Builder

end Build

end DocumentDb
