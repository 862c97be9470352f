import DocumentDb.Proofs.Document.Editing

/-!
# Errors of input

All that the builder and the edits of lists find fault with is the input: a rule is broken, a value
has the wrong shape, an id is not there, something is too large, or a query is at fault. `Blames`
says so of a step that depends on no state; here are these steps.
-/

namespace DocumentDb

/-- **The errors that input is to blame for.** -/
inductive Error.OfInput : Error → Prop
  | violation {field : String} {cause : Violation} : OfInput (.violation field cause)
  | mismatch {field : String} {cause : Mismatch} : OfInput (.mismatch field cause)
  | notFound {collection id : String} : OfInput (.notFound collection id)
  | capacity {cause : Overflow} : OfInput (.capacity cause)
  | query {fault : QueryFault} : OfInput (.query fault)

/-- A result is an error only because of the input. -/
def Blames {α : Type} (result : Except Error α) : Prop := ∀ e, result = .error e → e.OfInput

section Blames
variable {α β : Type}

theorem blames_ok {a : α} : Blames (.ok a) := nofun

theorem blames_pure {a : α} : Blames (pure a) := blames_ok

theorem blames_error {e : Error} (h : e.OfInput) : Blames (.error e : Except Error α) := by
  rintro _ ⟨⟩
  exact h

theorem Blames.bind {first : Except Error α} {next : α → Except Error β} (hfirst : Blames first)
    (hnext : ∀ a, Blames (next a)) : Blames (first >>= next) := by
  cases first with
  | error e => exact blames_error (hfirst e rfl)
  | ok a => exact hnext a

theorem Blames.map {result : Except Error α} {f : α → β} (h : Blames result) :
    Blames (result.map f) := by
  cases result with
  | error e => exact blames_error (h e rfl)
  | ok a => exact blames_ok

end Blames

/-! ### Casting -/

namespace Rules

variable {rules : Rules} {field : String}

theorem check_blames {α : Type} {bound : Option α} {exceeded : α → Bool}
    {violation : α → Violation} : Blames (check field bound exceeded violation) := by
  unfold check
  split
  · split_ifs
    · exact blames_error .violation
    · exact blames_ok
  · exact blames_ok

theorem missing_blames {α : Type} : Blames (missing field : Except Error α) :=
  blames_error .violation

theorem castString_blames {raw : String} : Blames (rules.castString field raw) :=
  check_blames.bind fun _ => check_blames.bind fun _ => check_blames.bind fun _ =>
    check_blames.bind fun _ => blames_pure

theorem castNumber_blames {n : Number} : Blames (rules.castNumber field n) :=
  check_blames.bind fun _ => check_blames.bind fun _ => check_blames.bind fun _ =>
    check_blames.bind fun _ => blames_pure

theorem castDate_blames {text : String} : Blames (rules.castDate field text) := by
  unfold castDate
  split
  · exact blames_error .mismatch
  · exact check_blames.bind fun _ => check_blames.bind fun _ => blames_pure

theorem cast_blames {kind : ScalarKind} {value : Value} : Blames (rules.cast field kind value) := by
  unfold cast
  split
  · split_ifs
    · exact missing_blames
    · exact check_blames.bind fun _ => blames_pure
  · split_ifs
    · exact missing_blames
    · exact blames_pure
  · exact castString_blames
  · exact castNumber_blames
  · exact blames_pure
  · exact castDate_blames
  · exact check_blames.bind fun _ => blames_pure
  · exact blames_error .mismatch

theorem castField_blames {kind : ScalarKind} {value? : Option Value} :
    Blames (rules.castField field kind value?) := by
  unfold castField
  split
  · exact cast_blames.map
  · split
    · exact cast_blames.map
    · split_ifs
      · exact missing_blames
      · exact blames_pure

theorem checkItems_blames {items : List Value} : Blames (rules.checkItems field items) := by
  have heach : Blames (rules.checkEachListed field items) := by
    induction items with
    | nil => exact blames_pure
    | cons item rest ih => exact check_blames.bind fun _ => ih
  exact check_blames.bind fun _ => check_blames.bind fun _ => heach

end Rules

/-! ### Ids -/

namespace IdSpace

variable {space : IdSpace} {field : String} {value : Value}

theorem cast_blames : Blames (space.cast field value) := by
  unfold IdSpace.cast
  split
  · split
    · split_ifs
      · exact blames_error .violation
      · exact blames_ok
    · exact blames_error .mismatch
  · split
    · split_ifs
      · exact blames_error .violation
      · exact blames_ok
    · exact blames_error .mismatch

theorem existing_blames : Blames (space.existing field value) := by
  refine cast_blames.bind fun id => ?_
  split_ifs
  · exact blames_pure
  · exact blames_error .notFound

theorem claim_blames : Blames (space.claim field value) := by
  refine Blames.bind (cast_blames.bind fun id => ?_) fun _ => blames_pure
  split_ifs
  · exact blames_error .violation
  · exact blames_pure

theorem generate_blames {source : IdSource} {drawn : Nat} :
    Blames (space.generate source drawn).1 := by
  have htext : ∀ length tries drawn,
      Blames (space.generateText source length tries drawn).1 := by
    intro length tries
    induction tries with
    | zero => exact fun _ => blames_error .violation
    | succ tries ih =>
      intro drawn
      simp only [IdSpace.generateText]
      split_ifs
      · exact ih _
      · exact blames_ok
  unfold IdSpace.generate
  split
  · unfold IdSpace.generateNumber
    dsimp only
    split_ifs
    · exact blames_error .capacity
    · exact blames_error .violation
    · exact blames_ok
  · exact htext _ _ _

theorem checkReference_blames : Blames (space.checkReference field value) := by
  unfold IdSpace.checkReference
  split
  · split
    · split
      · split_ifs
        · exact existing_blames.bind fun _ => blames_pure
        · exact blames_error .violation
      · exact blames_error .mismatch
    · exact blames_error .mismatch
  · exact blames_error .mismatch

end IdSpace

/-! ### Single steps of the builder -/

namespace Build

variable {path : String}

theorem passThrough_blames {fields : Fields} {reserved : List String} {strict : Bool}
    (input : Object) : Blames (passThrough path fields reserved strict input) := by
  induction input with
  | nil => exact blames_pure
  | cons entry rest ih =>
    obtain ⟨key, value⟩ := entry
    simp only [passThrough]
    split_ifs
    · exact ih
    · exact blames_error .violation
    · exact ih.bind fun _ => blames_pure

theorem castItems_blames {kind : ScalarKind} {rules : Rules} (items : List Value) (index : Nat) :
    Blames (castItems path kind rules index items) := by
  induction items generalizing index with
  | nil => exact blames_pure
  | cons item rest ih => exact Rules.cast_blames.bind fun _ => (ih _).bind fun _ => blames_pure

theorem checkSameId_blames {id : DocId} {patch : Object} : Blames (checkSameId path id patch) := by
  unfold checkSameId
  split
  · exact blames_pure
  · exact blames_error .violation
  · split_ifs
    · exact blames_pure
    · exact blames_error .violation

end Build

/-! ### Lists -/

namespace Listing

variable {path : String}

theorem itemsBehind_blames (segments : List String) (fields : Object) :
    Blames (itemsBehind path segments fields) := by
  fun_induction itemsBehind path segments fields with
  | case5 => exact blames_error .mismatch
  | case6 _ _ _ _ _ _ ih => exact ih
  | _ => exact blames_pure

theorem refuse_blames {α : Type} {fault : QueryFault} : Blames (refuse fault : Except Error α) :=
  blames_error .query

theorem single_blames {updates : List Value} : Blames (single path updates) := by
  unfold single
  split
  · exact blames_pure
  · exact refuse_blames

theorem updateFields_blames {update : Value} : Blames (updateFields path update) := by
  unfold updateFields
  split
  · exact blames_pure
  · exact blames_error .mismatch

theorem allFields_blames (updates : List Value) (index : Nat) :
    Blames (allFields path index updates) := by
  induction updates generalizing index with
  | nil => exact blames_pure
  | cons update rest ih =>
    exact updateFields_blames.bind fun _ => (ih _).bind fun _ => blames_pure

theorem withIds_blames (updates : List Object) (index : Nat) :
    Blames (withIds path index updates) := by
  induction updates generalizing index with
  | nil => exact blames_pure
  | cons update rest ih =>
    unfold withIds
    split
    · exact (ih _).bind fun _ => blames_pure
    · exact blames_error .violation

theorem overlayDocuments_blames {collection : String} (updates : List (DocId × Object))
    (items : List Value) : Blames (overlayDocuments collection updates items) := by
  induction updates generalizing items with
  | nil => exact blames_pure
  | cons update rest ih =>
    unfold overlayDocuments
    dsimp only
    split_ifs
    · exact ih _
    · exact blames_error .notFound

theorem overlayObjects_blames {key : String} (updates : List Object) (index : Nat)
    (items : List Value) : Blames (overlayObjects path key index updates items) := by
  induction updates generalizing index items with
  | nil => exact blames_pure
  | cons update rest ih =>
    unfold overlayObjects
    split
    · exact blames_error .violation
    · dsimp only
      split_ifs
      · exact ih _ _
      · exact blames_error .notFound

theorem updateByKey_blames {element : Element} {key : String} {current updates : List Value} :
    Blames (updateByKey path element key current updates) := by
  unfold updateByKey
  split
  · exact refuse_blames
  · split_ifs
    · exact refuse_blames
    · exact (allFields_blames _ _).bind fun _ => (withIds_blames _ _).bind fun _ =>
        overlayDocuments_blames _ _
  · split_ifs
    · exact refuse_blames
    · exact (allFields_blames _ _).bind fun _ => overlayObjects_blames _ _ _
  · exact refuse_blames

theorem updateReferences_blames {collection : String} {kind : IdKind} {e : Expression}
    {current updates : List Value} :
    Blames (updateReferences path collection kind e current updates) := by
  unfold updateReferences
  split
  · exact refuse_blames
  · refine single_blames.bind fun _ => ?_
    dsimp only
    split_ifs
    · exact blames_pure
    · exact blames_error .notFound

theorem updateByExpression_blames {element : Element} {e : Expression}
    {current updates : List Value} :
    Blames (updateByExpression path element e current updates) := by
  have hupdate : ∀ {α : Type} {next : Object → Except Error α}, (∀ fields, Blames (next fields)) →
      Blames (single path updates >>= fun update => updateFields path update >>= next) :=
    fun hnext => single_blames.bind fun _ => updateFields_blames.bind hnext
  unfold updateByExpression
  split
  · split_ifs
    · exact updateReferences_blames
    · exact refuse_blames
  · split_ifs
    · exact refuse_blames
    · exact refuse_blames
    · refine hupdate fun _ => ?_
      split_ifs
      · exact blames_error .violation
      · exact blames_error .violation
      · exact blames_pure
  · split_ifs
    · exact refuse_blames
    · exact hupdate fun _ => blames_pure
  · exact single_blames.bind fun _ => blames_pure
  · split_ifs
    · exact refuse_blames
    · exact single_blames.bind fun _ => blames_pure

theorem update_blames {element : Element} {matcher : Matcher} {current updates : List Value} :
    Blames (update path element matcher current updates) := by
  unfold update
  split
  · exact blames_pure
  · split
    · exact updateByExpression_blames
    · exact refuse_blames
  · exact updateByKey_blames

theorem checkDocuments_blames {space : IdSpace} {collection : String} (values : List Value)
    (index : Nat) : Blames (checkDocuments space path collection index values) := by
  induction values generalizing index with
  | nil => exact blames_pure
  | cons value rest ih =>
    cases value with
    | object fields =>
      unfold checkDocuments
      dsimp only
      split
      · exact ih _
      · exact ih _
      · exact Blames.bind IdSpace.existing_blames.map fun _ => ih _
    | _ => exact blames_error .mismatch

end Listing

/-! ### Looking -/

theorem Tree.element_blames {tree : Tree} {path : String} : Blames (tree.element path) := by
  unfold Tree.element
  split
  · split
    · exact blames_ok
    · exact blames_error .mismatch
  · exact blames_error .mismatch
  · exact blames_error .violation

end DocumentDb
