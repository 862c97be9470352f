import DocumentDb.Proofs.Document.Soundness

/-!
# Steps that keep work sound

`Opens` is what a step ensures of sound work: which documents are open after it, that no id is taken
back, and what holds of its result. It composes along `do` blocks. Here are its laws for single
steps; `Keeps` is the case of a step that leaves open what was open before.
-/

namespace DocumentDb

section Calculus
variable {ground : Ground} {opened : List (String × DocId)} {work : Work} {α β : Type}

/-- **What a step ensures of sound work**, with the documents that are open after it. -/
def Opens (ground : Ground) (opened : List (String × DocId)) (work : Work) (step : Build α)
    (left : α → List (String × DocId)) (done : α → Work → Prop) : Prop :=
  work.Sound ground opened →
    Ensures (step ground.context) work
      (fun a after => after.Sound ground (left a) ∧ work.Grows after ∧ done a after)
      (fun e after => after.Follows ground.context.registry ground.store ∧ ¬ e.Reuse)

/-- A step that opens no document and closes none. -/
abbrev Keeps (ground : Ground) (opened : List (String × DocId)) (work : Work) (step : Build α)
    (done : α → Work → Prop) : Prop :=
  Opens ground opened work step (fun _ => opened) done

/-- A step and then another. -/
theorem Opens.bind {first : Build α} {next : α → Build β} {left : α → List (String × DocId)}
    {left' : β → List (String × DocId)} {middle : α → Work → Prop} {done : β → Work → Prop}
    (hfirst : Opens ground opened work first left middle)
    (hnext : ∀ a after, work.Grows after → middle a after →
      Opens ground (left a) after (next a) left' done) :
    Opens ground opened work (first >>= next) left' done := by
  intro hwork
  refine Ensures.bind (hfirst hwork) ?_
  rintro a after ⟨hafter, hgrows, hmiddle⟩
  refine (hnext a after hgrows hmiddle hafter).mono ?_ fun _ _ h => h
  rintro b last ⟨hlast, hgrows', hdone⟩
  exact ⟨hlast, hgrows.trans hgrows', hdone⟩

theorem Opens.mono {step : Build α} {left : α → List (String × DocId)}
    {done done' : α → Work → Prop} (h : Opens ground opened work step left done)
    (hdone : ∀ a after, work.Grows after → done a after → done' a after) :
    Opens ground opened work step left done' := by
  intro hwork
  refine (h hwork).mono ?_ fun _ _ h => h
  rintro a after ⟨hafter, hgrows, hd⟩
  exact ⟨hafter, hgrows, hdone a after hgrows hd⟩

theorem opens_pure {a : α} {left : α → List (String × DocId)} {done : α → Work → Prop}
    (hleft : left a = opened) (h : done a work) :
    Opens ground opened work (pure a) left done := by
  intro hwork
  exact ⟨hleft.symm ▸ hwork, .refl work, h⟩

theorem keeps_pure {a : α} {done : α → Work → Prop} (h : done a work) :
    Keeps ground opened work (pure a) done :=
  opens_pure rfl h

theorem keeps_fail {e : Error} {done : α → Work → Prop} (h : ¬ e.Reuse) :
    Keeps ground opened work (Build.fail e) done := by
  intro hwork
  exact ⟨hwork.follows, h⟩

theorem read_keeps : Keeps ground opened work (read : Build Context)
    fun context after => context = ground.context ∧ work = after := by
  intro hwork
  exact ⟨hwork, .refl work, rfl, rfl⟩

theorem get_keeps : Keeps ground opened work (get : Build Work)
    fun found after => work = found ∧ work = after := by
  intro hwork
  exact ⟨hwork, .refl work, rfl, rfl⟩

theorem lift_keeps {result : Except Error α} (hreuse : NoReuse result) :
    Keeps ground opened work (Build.lift result) fun a _ => result = .ok a := by
  intro hwork
  cases result with
  | error e => exact ⟨hwork.follows, hreuse e rfl⟩
  | ok a => exact ⟨hwork, .refl work, rfl⟩

theorem keeps_map {step : Build α} {f : α → β} {done : β → Work → Prop}
    (h : Keeps ground opened work step fun a after => done (f a) after) :
    Keeps ground opened work (f <$> step) done := by
  intro hwork
  exact ensures_map.mpr (h hwork)

/-! ### Looking things up -/

theorem ensures_lift (context : Context) {result : Except Error α} {done : α → Work → Prop}
    {failed : Error → Work → Prop} (hdone : ∀ a, result = .ok a → done a work)
    (hfailed : ∀ e, result = .error e → failed e work) :
    Ensures (Build.lift result context) work done failed := by
  cases result with
  | error e => exact hfailed e rfl
  | ok a => exact hdone a rfl

theorem tree_noReuse {registry : Registry} {collection : String} :
    NoReuse (registry.tree collection) := by
  unfold Registry.tree
  split
  · exact noReuse_ok
  · exact noReuse_error (by rintro ⟨⟩)

theorem tree_keeps (collection : String) :
    Keeps ground opened work (Build.tree collection)
      fun tree _ => ground.context.registry.tree? collection = some tree :=
  (lift_keeps tree_noReuse).mono fun _ _ _ h => Registry.tree_ok_iff.mp h

variable (hground : ground.Sound)
include hground

/-- The space of a collection follows the store. -/
theorem space_keeps (collection : String) :
    Keeps ground opened work (Build.space collection) fun space after =>
      space ∈ after.spaces ∧ space.collection = collection ∧
        space.Follows ground.context.registry ground.store := by
  intro hwork
  refine ensures_bind.mpr (ensures_get.mpr ?_)
  cases hspace : work.space? collection with
  | some space =>
    obtain ⟨hin, hcollection⟩ := Work.space?_some hspace
    exact ⟨hwork, .refl work, hin, hcollection, hwork.follows.each space hin⟩
  | none =>
    refine ensures_bind.mpr (ensures_lift ground.context (fun tree htree => ?_)
      fun e he => ⟨hwork.follows, tree_noReuse e he⟩)
    have htree := Registry.tree_ok_iff.mp htree
    obtain ⟨ids, hstate, _⟩ :=
      MemoryStore.state_identified (hground.stored.identified collection)
    have hread := hground.state collection
    rw [hstate] at hread
    obtain ⟨hcollection, hfollows, hids⟩ := IdSpace.follows_ofState hground htree hstate
    refine ensures_bind.mpr (ensures_lift ground.context (fun state hstate' => ?_) fun e he => ?_)
    · rw [hread] at hstate'
      cases hstate'
      rw [← hcollection] at hspace hids
      obtain ⟨hafter, hgrows⟩ := hwork.read hspace hfollows hids
      refine ⟨hafter, hgrows, ?_, hcollection, hfollows⟩
      exact (Work.mem_putSpace hwork.follows.once).mpr (Or.inl rfl)
    · rw [hread] at he
      cases he

/-- An id that a step took, and that opens a document of its collection. -/
def Taking (ground : Ground) (collection : String) (id : DocId) (after : Work) : Prop :=
  after.Taken collection id ∧
    ∃ tree, ground.context.registry.tree? collection = some tree ∧ tree.id.Admits id

/-- **Generating an id.** -/
theorem generateId_opens (collection : String) :
    Opens ground opened work (Build.generateId collection)
      (fun id => (collection, id) :: opened) (Taking ground collection) := by
  refine Opens.bind (space_keeps hground collection) ?_
  rintro space middle _ ⟨hin, rfl, hspace⟩
  obtain ⟨tree, htree, hrule⟩ := hspace.rule
  have hproper : space.rule.Proper := hrule ▸ (hground.registry.tree? htree).id
  have hnoReuse : NoReuse (space.generate ground.context.source middle.drawn).1 :=
    IdSpace.generate_noReuse hspace.numbered
  refine Opens.bind read_keeps ?_
  rintro _ _ _ ⟨rfl, rfl⟩
  refine Opens.bind get_keeps ?_
  rintro _ _ _ ⟨rfl, rfl⟩ hmiddle
  cases hgenerate : space.generate ground.context.source middle.drawn with
  | mk result drawn =>
    rw [hgenerate] at hnoReuse
    cases result with
    | error e => exact ⟨(hmiddle.draw drawn).follows, hnoReuse e rfl⟩
    | ok taken =>
      obtain ⟨id, after⟩ := taken
      have hok : (space.generate ground.context.source middle.drawn).1 = .ok (id, after) := by
        rw [hgenerate]
      obtain ⟨htakes, hnext⟩ := IdSpace.generate_ok hground.source hproper hok
      have hfresh : ∀ n, id = .number n → ground.named space.collection id ∨
          ground.store.count space.collection < n := by
        intro n hn
        right
        have := hspace.ahead
        have := hnext n hn
        omega
      obtain ⟨hafter, hgrows, htaken⟩ := (hmiddle.draw drawn).take hin htakes hfresh
      exact ⟨hafter, hgrows, htaken, tree, htree, hrule ▸ htakes.admits⟩

/-- **Claiming an id** that the input names. -/
theorem claimId_opens (collection field : String) (value : Value)
    (hnamed : ∀ id, value = DocId.toValue id → ground.named collection id) :
    Opens ground opened work (Build.claimId collection field value)
      (fun id => (collection, id) :: opened) (Taking ground collection) := by
  refine Opens.bind (space_keeps hground collection) ?_
  rintro space middle _ ⟨hin, rfl, hspace⟩ hmiddle
  obtain ⟨tree, htree, hrule⟩ := hspace.rule
  refine ensures_bind.mpr (ensures_lift ground.context ?_ fun e he =>
    ⟨hmiddle.follows, IdSpace.claim_noReuse e he⟩)
  rintro ⟨id, after⟩ hclaim
  obtain ⟨hvalue, htakes⟩ := IdSpace.claim_ok hclaim
  obtain ⟨hafter, hgrows, htaken⟩ := hmiddle.take hin htakes fun _ _ => Or.inl (hnamed id hvalue)
  exact ⟨hafter, hgrows, htaken, tree, htree, hrule ▸ htakes.admits⟩

/-- The latest version of a document conforms and has the id that it was looked up by. -/
theorem lookup_keeps (collection : String) (id : DocId) :
    Keeps ground opened work (Build.lookup collection id)
      fun document after => ground.Built after collection id document := by
  intro hwork
  refine ensures_bind.mpr (ensures_get.mpr ?_)
  cases hpending : work.pendingDocument? collection id with
  | some document =>
    obtain ⟨write, hfound, rfl⟩ := Option.map_eq_some_iff.mp hpending
    have hin := List.mem_reverse.mp (List.mem_of_find?_eq_some hfound)
    have hmeans := List.find?_some hfound
    simp only [Bool.and_eq_true, beq_iff_eq] at hmeans
    obtain ⟨own, _, hbuilt⟩ := hwork.waiting write hin
    have hown := hbuilt.id
    rw [hmeans.2] at hown
    cases hown
    exact ⟨hwork, .refl work, hmeans.1 ▸ hbuilt⟩
  | none =>
    refine ensures_bind.mpr (ensures_lift ground.context (fun found hfound => ?_) fun e he => ?_)
    · rw [hground.fetch collection id] at hfound
      cases hdocument : findDocument (ground.store.documents collection) id with
      | none =>
        rw [hdocument] at hfound
        cases hfound
        exact ⟨hwork.follows, by rintro ⟨⟩⟩
      | some document =>
        rw [hdocument] at hfound
        cases hfound
        obtain ⟨hid, tree, htree, hconforms⟩ := hground.stored.find hdocument
        refine ⟨hwork, .refl work, hid, tree, htree, hconforms.mono ?_⟩
        rintro other otherId (hloose | hhas)
        · exact Or.inl hloose
        · exact Or.inr (Or.inl hhas)
    · rw [hground.fetch collection id] at he
      cases he

omit hground in
/-- A document that was built may wait; then it is not open any more. -/
theorem push_opens {opened' : List (String × DocId)} {collection : String} {id : DocId}
    {document : Document} (hopened : ∀ other ∈ opened, other = (collection, id) ∨ other ∈ opened')
    (htaken : work.Taken collection id) (hbuilt : ground.Built work collection id document) :
    Opens ground opened work (Build.push collection document) (fun _ => opened')
      fun _ _ => True := by
  intro hwork
  exact ⟨hwork.push hopened htaken hbuilt, fun _ _ h => h, trivial⟩

theorem checkSize_keeps (collection : String) (document : Document) :
    Keeps ground opened work (Build.checkSize collection document) fun _ _ => True := by
  refine Opens.bind (space_keeps hground collection) ?_
  intro space middle _ _
  dsimp only
  split_ifs
  · exact keeps_fail (by rintro ⟨⟩)
  · exact keeps_pure trivial

/-- A value that passes as a reference names a document that is taken. -/
theorem checkReference_keeps {strict : Bool} {kind : IdKind} {required : Bool}
    (path collection : String) (value : Value) :
    Keeps ground opened work (Build.checkReference path collection value) fun built after =>
      Fits ground.context.registry (ground.Knows after) strict
        (.reference collection kind required) built := by
  refine Opens.bind (space_keeps hground collection) ?_
  rintro space middle _ ⟨hin, rfl, hspace⟩
  refine (lift_keeps IdSpace.checkReference_noReuse).mono fun built after hgrows hbuilt => ?_
  obtain ⟨id, rfl, _, hid, -⟩ := IdSpace.checkReference_ok hbuilt
  exact .reference (Or.inr (Or.inr (hgrows _ _ ⟨space, hin, rfl, hid⟩)))

end Calculus

end DocumentDb
