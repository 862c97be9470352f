import DocumentDb.Document.Listing
import DocumentDb.Proofs.Document.Keeping

/-!
# Editing lists keeps work sound

Computing the new items of a list looks at spaces at most: no id is taken and no document waits. The
errors are those of checks on the input.
-/

namespace DocumentDb

namespace Listing

variable {path : String}

theorem itemsBehind_noReuse (segments : List String) (fields : Object) :
    NoReuse (itemsBehind path segments fields) := by
  fun_induction itemsBehind path segments fields with
  | case5 => exact noReuse_error (by rintro ⟨⟩)
  | case6 _ _ _ _ _ _ ih => exact ih
  | _ => exact noReuse_pure

theorem refuse_noReuse {α : Type} {fault : QueryFault} : NoReuse (refuse fault : Except Error α) :=
  noReuse_error (by rintro ⟨⟩)

theorem single_noReuse (updates : List Value) : NoReuse (single path updates) := by
  unfold single
  split
  · exact noReuse_pure
  · exact refuse_noReuse

theorem updateFields_noReuse (update : Value) : NoReuse (updateFields path update) := by
  unfold updateFields
  split
  · exact noReuse_pure
  · exact noReuse_error (by rintro ⟨⟩)

theorem allFields_noReuse (updates : List Value) (index : Nat) :
    NoReuse (allFields path index updates) := by
  induction updates generalizing index with
  | nil => exact noReuse_pure
  | cons update rest ih =>
    exact (updateFields_noReuse _).bind fun _ => (ih _).bind fun _ => noReuse_pure

theorem withIds_noReuse (updates : List Object) (index : Nat) :
    NoReuse (withIds path index updates) := by
  induction updates generalizing index with
  | nil => exact noReuse_pure
  | cons update rest ih =>
    unfold withIds
    split
    · exact (ih _).bind fun _ => noReuse_pure
    · exact noReuse_error (by rintro ⟨⟩)

theorem overlayDocuments_noReuse {collection : String} (updates : List (DocId × Object))
    (items : List Value) : NoReuse (overlayDocuments collection updates items) := by
  induction updates generalizing items with
  | nil => exact noReuse_pure
  | cons update rest ih =>
    unfold overlayDocuments
    dsimp only
    split_ifs
    · exact ih _
    · exact noReuse_error (by rintro ⟨⟩)

theorem overlayObjects_noReuse {key : String} (updates : List Object) (index : Nat)
    (items : List Value) : NoReuse (overlayObjects path key index updates items) := by
  induction updates generalizing index items with
  | nil => exact noReuse_pure
  | cons update rest ih =>
    unfold overlayObjects
    split
    · exact noReuse_error (by rintro ⟨⟩)
    · dsimp only
      split_ifs
      · exact ih _ _
      · exact noReuse_error (by rintro ⟨⟩)

theorem updateByKey_noReuse {element : Element} {key : String} {current updates : List Value} :
    NoReuse (updateByKey path element key current updates) := by
  unfold updateByKey
  split
  · exact refuse_noReuse
  · split_ifs
    · exact refuse_noReuse
    · exact (allFields_noReuse _ _).bind fun _ => (withIds_noReuse _ _).bind fun _ =>
        overlayDocuments_noReuse _ _
  · split_ifs
    · exact refuse_noReuse
    · exact (allFields_noReuse _ _).bind fun _ => overlayObjects_noReuse _ _ _
  · exact refuse_noReuse

theorem updateReferences_noReuse {collection : String} {kind : IdKind} {e : Expression}
    {current updates : List Value} :
    NoReuse (updateReferences path collection kind e current updates) := by
  unfold updateReferences
  split
  · exact refuse_noReuse
  · refine (single_noReuse _).bind fun _ => ?_
    dsimp only
    split_ifs
    · exact noReuse_pure
    · exact noReuse_error (by rintro ⟨⟩)

theorem updateByExpression_noReuse {element : Element} {e : Expression}
    {current updates : List Value} :
    NoReuse (updateByExpression path element e current updates) := by
  unfold updateByExpression
  split
  · split_ifs
    · exact updateReferences_noReuse
    · exact refuse_noReuse
  · split_ifs
    · exact refuse_noReuse
    · exact refuse_noReuse
    · refine (single_noReuse _).bind fun _ => (updateFields_noReuse _).bind fun _ => ?_
      split_ifs
      · exact noReuse_error (by rintro ⟨⟩)
      · exact noReuse_error (by rintro ⟨⟩)
      · exact noReuse_pure
  · split_ifs
    · exact refuse_noReuse
    · exact (single_noReuse _).bind fun _ => (updateFields_noReuse _).bind fun _ => noReuse_pure
  · exact (single_noReuse _).bind fun _ => noReuse_pure
  · split_ifs
    · exact refuse_noReuse
    · exact (single_noReuse _).bind fun _ => noReuse_pure

theorem update_noReuse {element : Element} {matcher : Matcher} {current updates : List Value} :
    NoReuse (update path element matcher current updates) := by
  unfold update
  split
  · exact noReuse_pure
  · split
    · exact updateByExpression_noReuse
    · exact refuse_noReuse
  · exact updateByKey_noReuse

theorem checkDocuments_noReuse {space : IdSpace} {collection : String} (values : List Value)
    (index : Nat) : NoReuse (checkDocuments space path collection index values) := by
  induction values generalizing index with
  | nil => exact noReuse_pure
  | cons value rest ih =>
    cases value with
    | object fields =>
      unfold checkDocuments
      dsimp only
      split
      · exact ih _
      · exact ih _
      · exact NoReuse.bind (IdSpace.existing_noReuse.map) fun _ => ih _
    | _ => exact noReuse_error (by rintro ⟨⟩)

end Listing

/-! ### Steps that only look -/

section Looking
variable {ground : Ground} {α β : Type}

/-- **A step only looks**: it takes no id and lets no document wait. -/
def OnlyLooks (ground : Ground) (step : Build α) : Prop :=
  ∀ work : Work, work.Sound ground [] → Ensures (step ground.context) work
    (fun _ after => after.Sound ground [] ∧ after.pending = work.pending)
    (fun e after => after.Follows ground.context.registry ground.store ∧ ¬ e.Reuse)

theorem onlyLooks_lift {result : Except Error α} (h : NoReuse result) :
    OnlyLooks ground (Build.lift result) := by
  intro work hwork
  exact ensures_lift ground.context (fun _ _ => ⟨hwork, rfl⟩) fun e he => ⟨hwork.follows, h e he⟩

theorem OnlyLooks.bind {first : Build α} {next : α → Build β} (hfirst : OnlyLooks ground first)
    (hnext : ∀ a, OnlyLooks ground (next a)) : OnlyLooks ground (first >>= next) := by
  intro work hwork
  refine Ensures.bind (hfirst work hwork) ?_
  rintro a after ⟨hafter, hpending⟩
  refine (hnext a after hafter).mono ?_ fun _ _ h => h
  rintro b last ⟨hlast, hsame⟩
  exact ⟨hlast, hsame.trans hpending⟩

theorem space_pending (context : Context) (work : Work) (collection : String) :
    Ensures (Build.space collection context) work (fun _ after => after.pending = work.pending)
      (fun _ _ => True) := by
  refine ensures_bind.mpr (ensures_get.mpr ?_)
  cases work.space? collection with
  | some space => exact rfl
  | none =>
    refine ensures_bind.mpr (ensures_lift context (fun tree _ => ?_) fun _ _ => trivial)
    refine ensures_bind.mpr (ensures_lift context (fun state _ => ?_) fun _ _ => trivial)
    exact rfl

variable (hground : ground.Sound)
include hground

theorem space_onlyLooks (collection : String) : OnlyLooks ground (Build.space collection) := by
  intro work hwork
  refine ((space_keeps hground collection hwork).and
    (space_pending ground.context work collection)).mono ?_ fun _ _ h => h.1
  rintro space after ⟨⟨hafter, _, _⟩, hpending⟩
  exact ⟨hafter, hpending⟩

/-- Adding values to a list only looks. -/
theorem insert_onlyLooks (path : String) (element : Element) (current values : List Value) :
    OnlyLooks ground (Listing.insert path element current values) := by
  unfold Listing.insert
  split
  · exact onlyLooks_lift noReuse_pure
  · refine (space_onlyLooks hground _).bind fun space => ?_
    exact (onlyLooks_lift (Listing.checkDocuments_noReuse _ _)).bind fun _ =>
      onlyLooks_lift noReuse_pure
  · exact onlyLooks_lift noReuse_pure

end Looking

end DocumentDb
