import DocumentDb.Proofs.Calendar.Lengths
import DocumentDb.Proofs.Document.Agreement
import DocumentDb.Proofs.Document.Embedding
import DocumentDb.Proofs.Document.ReferenceLists

/-!
# Writing lists of references

A list of references in its form that is written goes through the builder as any input does: each
of its references is checked against the ids that are stored now, and the document around it has to
fit. So it is written as it is if all its references lead to documents, and else the first one that
does not is what is refused (`Dangles`).
-/

namespace DocumentDb

namespace IdSpace

variable {space : IdSpace} {field : String} {id : DocId}

end IdSpace

/-- Work that finds the same spaces and lets the same documents wait. -/
structure Work.Steady (context : Context) (work after : Work) : Prop where
  pending : after.pending = work.pending
  found : after.found context = work.found context

theorem Work.Steady.trans {context : Context} {work middle after : Work}
    (h : work.Steady context middle) (h' : middle.Steady context after) :
    work.Steady context after :=
  ⟨h'.pending.trans h.pending, h'.found.trans h.found⟩

namespace Build

variable {context : Context} {work : Work} {collection path target : String} {space : IdSpace}

theorem space_steady (hfound : work.found context collection = .ok space) :
    ∃ after, Build.space collection context work = (.ok space, after) ∧
      work.Steady context after := by
  obtain ⟨hresult, hpending, -, hspaces⟩ := space_eq collection context work
  exact ⟨_, Prod.ext (hresult.trans hfound) rfl, hpending, hspaces⟩

/-- The size of a document is compared with the limit of its collection. -/
theorem checkSize_steady (hfound : work.found context collection = .ok space)
    {document : Document} : Ensures (checkSize collection document context) work
      (fun _ after => document.FitsShard space.shardMax ∧ work.Steady context after)
      (fun e _ => ¬ document.FitsShard space.shardMax ∧ e.TooLarge) := by
  obtain ⟨after, hspace, hsteady⟩ := space_steady hfound
  unfold checkSize Ensures
  rw [bind_of_ok hspace]
  by_cases hlarge : document.byteSize > documentMax space.shardMax
  · dsimp only
    rw [if_pos hlarge]
    exact ⟨Nat.not_le_of_lt hlarge, .document⟩
  · dsimp only
    rw [if_neg hlarge]
    exact ⟨Nat.le_of_not_lt hlarge, hsteady⟩

variable {there : DocId → Prop}

end Build

/-! ### Documents with a list written -/

/-- The document with a list written behind segments, as a change stores it. -/
def Tree.withList (tree : Tree) (now : Instant) (existing : Document) (segments : List String)
    (items : List Value) : Document :=
  tree.order (Build.stampChanged tree now (existing.write (.array items) segments))

section WithList
variable {tree : Tree} {existing : Document} {name : String} {rest : List String}
  {items : List Value} (hname : name ∉ tree.managedKeys) (now : Instant)
include hname

theorem idKey_ne_of_unmanaged : name ≠ idKey := by
  rintro rfl
  exact hname List.mem_cons_self

theorem id?_withList {id : DocId} (hid : existing.id? = some id) :
    (tree.withList now existing (name :: rest) items).id? = some id := by
  unfold Tree.withList
  rw [id?_order]
  exact id?_changed now hid (Object.value?_write (idKey_ne_of_unmanaged hname))

/-- The list is what was written. -/
theorem follow?_withList : Object.follow? (tree.withList now existing (name :: rest) items)
    (name :: rest) = some (.array items) := by
  unfold Tree.withList
  rw [Object.follow?_congr (value?_changed hname now _), Object.follow?_write]

/-- **Nothing else is changed** by a list that is written, but for the time of change: what other
paths lead to stays, unless they lead to an object around the list. -/
theorem follow?_withList_elsewhere {path : List String}
    (hlist : ∀ inner, existing.follow? (name :: rest) ≠ some (.object inner))
    (hpath : ¬ path <+: name :: rest)
    (htime : tree.settings.updatedAt = true → path.head? ≠ some updatedKey) :
    Object.follow? (tree.withList now existing (name :: rest) items) path =
      existing.follow? path := by
  by_cases hbehind : name :: rest <+: path
  · have hne : path ≠ name :: rest := fun heq => hpath (heq ▸ List.prefix_refl _)
    rw [Object.follow?_behind hlist hbehind hne]
    refine Object.follow?_behind (fun inner hinner => ?_) hbehind hne
    rw [follow?_withList hname] at hinner
    cases hinner
  · cases path with
    | nil => exact absurd List.nil_prefix hpath
    | cons key others =>
      have hkey : ¬ (tree.settings.updatedAt = true ∧ updatedKey = key) := by
        rintro ⟨hset, rfl⟩
        exact htime hset rfl
      have hvalue : Object.value? (tree.withList now existing (name :: rest) items) key =
          Object.value? (existing.write (.array items) (name :: rest)) key := by
        unfold Tree.withList
        rw [Tree.value?_order, value?_stampChanged, if_neg hkey]
      rw [Object.follow?_congr hvalue, Object.follow?_write_elsewhere hpath hbehind]

end WithList

namespace Build

variable {context : Context} {work : Work} {collection path name target : String}
  {rest : List String} {tree : Tree} {kind : IdKind} {existing : Document} {id : DocId}
  {items : List Value}

variable (context work) in
/-- A patch of a list reads the items, and writes the list if it fits. -/
theorem change_behind (htree : context.registry.tree? collection = some tree)
    (hid : existing.id? = some id) (hpath : Text.splitAt '.' path = name :: rest) {node : Node}
    {read : String → Build (List Value)} (hread : Reads node items read)
    (hplain : ∀ inner, node ≠ .nested inner)
    (hfollow : tree.fields.follow? (name :: rest) = some node)
    (hname : name ∉ tree.managedKeys) : ∃ field,
      change collection existing (Listing.patch path items) context work = (do
        let built ← read field
        let changed := tree.withList context.now existing (name :: rest) built
        checkSize collection changed
        pure changed : Build Document) context work := by
  let patch : Object :=
    [(name, rest.foldr (fun key value => .object [(key, value)]) (.array items))]
  have hpatch : Listing.patch path items = .object patch := by
    unfold Listing.patch
    rw [hpath]
    rfl
  have hsame : checkSameId "" id patch = .ok () := by
    unfold checkSameId
    rw [Object.value?, if_neg (idKey_ne_of_unmanaged hname)]
    rfl
  obtain ⟨field, hmerge⟩ : ∃ field, mergeFields "" tree.fields existing patch
      { strict := tree.settings.strict, owner := ⟨collection, id⟩, inject := none, top := true }
      tree.managedKeys = _ := mergeFields_behind hread hplain hfollow hname
  refine ⟨field, ?_⟩
  have hchange : change collection existing (Listing.patch path items) context work =
      updateDocument "" collection existing patch context work := by
    rw [hpatch]
    rfl
  rw [hchange, updateDocument, bind_of_ok (tree_of_ok (Registry.tree_ok_iff.mpr htree)), hid]
  dsimp only
  rw [bind_of_ok (lift_of_ok hsame), hmerge]
  simp only [bind_assoc, pure_bind]
  rw [bind_eq, bind_eq]
  rcases read field context work with ⟨result, after⟩
  cases result <;> rfl

end Build

end DocumentDb
