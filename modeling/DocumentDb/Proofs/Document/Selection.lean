import DocumentDb.Proofs.Document.Items

/-!
# Items that an expression selects

With `=` an expression selects every item that it holds of, with `===` only the first one. Which
items these are, and what becomes of an item that is selected, is said here by relations: by the
operands that are compared and by the fields that an update lays over an item, not by the functions
that go through the list.

* `Listing.update_selected`: an update by an expression that succeeds has one update value, and it
  changes the selected items and nothing else; in a list of references it replaces the first
  reference to the id that the literal stands for.
-/

namespace DocumentDb

/-! ### The first item that passes a test -/

section First
variable {α : Type} {test : α → Bool} {edit : α → α} {items : List α}

theorem editFirst_append {before after : List α} {old : α}
    (hbefore : ∀ item ∈ before, test item = false) (hold : test old = true) :
    editFirst test edit (before ++ old :: after) = before ++ edit old :: after := by
  induction before with
  | nil => simp [editFirst, hold]
  | cons head rest ih =>
    obtain ⟨hhead, hrest⟩ := List.forall_mem_cons.mp hbefore
    simp [editFirst, hhead, ih hrest]

theorem editFirst_eq_self (h : ∀ item ∈ items, test item = false) :
    editFirst test edit items = items := by
  induction items with
  | nil => rfl
  | cons head rest ih =>
    obtain ⟨hhead, hrest⟩ := List.forall_mem_cons.mp h
    simp [editFirst, hhead, ih hrest]

/-- A list in which an item passes a test falls apart at the first one. -/
theorem exists_first (h : items.any test = true) : ∃ before old after,
    items = before ++ old :: after ∧ test old = true ∧ ∀ item ∈ before, test item = false := by
  have hsome : (items.find? test).isSome = true := by simpa using h
  obtain ⟨old, hold⟩ := Option.isSome_iff_exists.mp hsome
  obtain ⟨htest, before, after, hitems, hbefore⟩ := List.find?_eq_some_iff_append.mp hold
  exact ⟨before, old, after, hitems, htest, by simpa using hbefore⟩

end First

/-! ### Selected items -/

namespace Expression

/-- What an expression compares of a list item: the item or what is found in it at the path. -/
def operand (e : Expression) (item : Value) : Operand :=
  .ofValue (if e.addressesItem then some item else item.atPath? e.path)

/-- **An expression selects an item of a list**, given by its index. -/
inductive Selects (e : Expression) (items : List Value) (i : Nat) : Prop
  /-- With `=` each item that equals the literal up to conversions. -/
  | loose {item : Value} (hoperator : e.operator = .eq) (hitem : items[i]? = some item)
      (hequal : (e.operand item).looseEq (.ofLiteral e.literal) = true) : Selects e items i
  /-- With `===` the first item that equals the literal as it is. -/
  | strict {item : Value} (hoperator : e.operator = .strictEq) (hitem : items[i]? = some item)
      (hequal : (e.operand item).strictEq (.ofLiteral e.literal) = true)
      (hfirst : ∀ j < i, ∀ earlier, items[j]? = some earlier →
        (e.operand earlier).strictEq (.ofLiteral e.literal) = false) : Selects e items i

/-- **The selected items are rewritten**, and the others stay where and as they are. -/
structure Rewrites (e : Expression) (becomes : Value → Value → Prop) (items result : List Value) :
    Prop where
  length : result.length = items.length
  selected : ∀ i item, e.Selects items i → items[i]? = some item →
    ∃ new, result[i]? = some new ∧ becomes item new
  others : ∀ i, ¬ e.Selects items i → result[i]? = items[i]?

variable {e : Expression} {items : List Value}

theorem holdsOfItem_eq (e : Expression) (item : Value) :
    e.holdsOfItem item = e.operator.holds (e.operand item) (.ofLiteral e.literal) := by
  unfold holdsOfItem operand holds compareValue
  split_ifs <;> rfl

theorem holdsOfItem_loose (hoperator : e.operator = .eq) (item : Value) :
    e.holdsOfItem item = (e.operand item).looseEq (.ofLiteral e.literal) := by
  rw [holdsOfItem_eq, hoperator, Operator.holds]

theorem holdsOfItem_strict (hoperator : e.operator = .strictEq) (item : Value) :
    e.holdsOfItem item = (e.operand item).strictEq (.ofLiteral e.literal) := by
  rw [holdsOfItem_eq, hoperator, Operator.holds]

theorem selects_loose (hoperator : e.operator = .eq) {i : Nat} :
    e.Selects items i ↔ ∃ item, items[i]? = some item ∧ e.holdsOfItem item = true := by
  constructor
  · rintro (⟨-, hitem, hequal⟩ | ⟨hstrict, -, -, -⟩)
    · exact ⟨_, hitem, by rwa [holdsOfItem_loose hoperator]⟩
    · rw [hoperator] at hstrict
      cases hstrict
  · rintro ⟨item, hitem, hholds⟩
    exact .loose hoperator hitem (by rwa [← holdsOfItem_loose hoperator])

theorem selects_strict (hoperator : e.operator = .strictEq) {i : Nat} :
    e.Selects items i ↔ (∃ item, items[i]? = some item ∧ e.holdsOfItem item = true) ∧
      ∀ j < i, ∀ earlier, items[j]? = some earlier → e.holdsOfItem earlier = false := by
  simp only [holdsOfItem_strict hoperator]
  constructor
  · rintro (⟨hloose, -, -⟩ | ⟨-, hitem, hequal, hfirst⟩)
    · rw [hoperator] at hloose
      cases hloose
    · exact ⟨⟨_, hitem, hequal⟩, hfirst⟩
  · rintro ⟨⟨item, hitem, hequal⟩, hfirst⟩
    exact .strict hoperator hitem hequal hfirst

variable {becomes : Value → Value → Prop} {edit : Value → Value}
  (hedit : ∀ item ∈ items, becomes item (edit item))
include hedit

/-- With `=` every item that the expression holds of is edited. -/
theorem rewrites_loose (hoperator : e.operator = .eq) :
    e.Rewrites becomes items (e.edit edit items) := by
  have hmap : e.edit edit items =
      items.map fun item => if e.holdsOfItem item then edit item else item := by
    rw [Expression.edit, hoperator]
  rw [hmap]
  refine ⟨by simp, fun i item hselects hitem => ?_, fun i hselects => ?_⟩
  · obtain ⟨found, hfound, hholds⟩ := (selects_loose hoperator).mp hselects
    obtain rfl : found = item := Option.some.inj (hfound.symm.trans hitem)
    exact ⟨edit found, by simp [hitem, hholds], hedit found (List.mem_of_getElem? hitem)⟩
  · rw [selects_loose hoperator] at hselects
    rw [List.getElem?_map]
    cases hitem : items[i]? with
    | none => rfl
    | some item =>
      have hholds : ¬ e.holdsOfItem item = true := fun hholds => hselects ⟨item, hitem, hholds⟩
      simp [hholds]

/-- With `===` the first item that the expression holds of is edited, if there is one. -/
theorem rewrites_strict (hoperator : e.operator = .strictEq) :
    e.Rewrites becomes items (e.edit edit items) := by
  have hfirst : e.edit edit items = editFirst e.holdsOfItem edit items := by
    rw [Expression.edit, hoperator]
  rw [hfirst]
  by_cases hany : items.any e.holdsOfItem = true
  · obtain ⟨before, old, after, rfl, hold, hbefore⟩ := exists_first hany
    have hindex : ∀ i, e.Selects (before ++ old :: after) i ↔ i = before.length := by
      intro i
      rw [selects_strict hoperator]
      constructor
      · rintro ⟨⟨item, hitem, hholds⟩, hnone⟩
        by_contra hne
        rcases Nat.lt_or_gt_of_ne hne with hlt | hgt
        · rw [List.getElem?_append_left hlt] at hitem
          rw [hbefore item (List.mem_of_getElem? hitem)] at hholds
          cases hholds
        · rw [hnone before.length hgt old (by simp)] at hold
          cases hold
      · rintro rfl
        refine ⟨⟨old, by simp, hold⟩, fun j hj earlier hearlier => ?_⟩
        rw [List.getElem?_append_left hj] at hearlier
        exact hbefore earlier (List.mem_of_getElem? hearlier)
    rw [editFirst_append hbefore hold]
    refine ⟨by simp, fun i item hselects hitem => ?_, fun i hselects => ?_⟩
    · obtain rfl := (hindex i).mp hselects
      obtain rfl : old = item := by simpa using hitem
      exact ⟨edit old, by simp, hedit old (by simp)⟩
    · have hne : i ≠ before.length := fun heq => hselects ((hindex i).mpr heq)
      simp only [List.getElem?_append, List.getElem?_cons]
      split_ifs
      · rfl
      · omega
      · rfl
  · have hnone : ∀ item ∈ items, e.holdsOfItem item = false := by simpa using hany
    rw [editFirst_eq_self hnone]
    refine ⟨rfl, fun i item hselects hitem => ?_, fun _ _ => rfl⟩
    obtain ⟨⟨found, hfound, hholds⟩, -⟩ := (selects_strict hoperator).mp hselects
    rw [hnone found (List.mem_of_getElem? hfound)] at hholds
    cases hholds

/-- An edit of the items that an expression holds of rewrites those that it selects. -/
theorem rewrites_edit (hoperator : e.operator = .eq ∨ e.operator = .strictEq) :
    e.Rewrites becomes items (e.edit edit items) := by
  rcases hoperator with hloose | hstrict
  · exact rewrites_loose hedit hloose
  · exact rewrites_strict hedit hstrict

end Expression

/-! ### What becomes of an item -/

/-- **An item with the fields of an update laid over it**: the fields of the update count, and new
keys come at the end. What is no object makes room for the update. -/
inductive Overlaid (update : Object) : Value → Value → Prop
  | fields {fields merged : Object}
      (hvalues : ∀ key, Object.value? merged key =
        (Object.value? update key).or (Object.value? fields key))
      (hkeys : Object.keys merged = Object.keys fields ++
        (Object.keys update).filter fun key => !(Object.keys fields).contains key) :
      Overlaid update (.object fields) (.object merged)
  | replaced {item : Value} (hitem : item.object? = none) : Overlaid update item (.object update)

theorem overlaid_overlay {update : Object} (honce : (Object.keys update).Nodup) (item : Value) :
    Overlaid update item (overlay update item) := by
  cases item with
  | object fields =>
    exact .fields (Object.value?_overlaid honce fields) (Object.keys_putAll honce fields)
  | _ => exact .replaced rfl

/-- **What an item becomes that is chosen for an update**: the update itself, except that objects
and documents get the fields of the update laid over their own. -/
def Element.Becomes (element : Element) (update item new : Value) : Prop :=
  match element with
  | .document _ | .object _ => ∃ fields, update = .object fields ∧ Overlaid fields item new
  | _ => new = update

/-! ### Updates by an expression -/

namespace Listing

/-- **What an update by an expression makes of a list.** -/
inductive Selected (e : Expression) (update : Value) (current : List Value) :
    Element → List Value → Prop
  /-- The reference to the id of the literal is replaced, and the duplicates that come of it
  collapse. -/
  | reference {target : String} {kind : IdKind} {id : DocId} {before after : List Value}
      {old : Value} (haddresses : e.path = Expression.itemKey) (hoperator : e.operator = .strictEq)
      (hid : literalId? kind e.literal = some id) (hcurrent : current = before ++ old :: after)
      (hold : old.referenceId? = some id) (hfirst : ∀ item ∈ before, item.referenceId? ≠ some id) :
      Selected e update current (.reference target kind)
        (collapse Value.referenceId? (before ++ asReference target update :: after))
  /-- The selected items of any other list are rewritten. -/
  | items {element : Element} {result : List Value}
      (helement : ∀ target kind, element ≠ .reference target kind)
      (hoperator : e.operator = .eq ∨ e.operator = .strictEq)
      (hrewrites : e.Rewrites (element.Becomes update) current result) :
      Selected e update current element result

variable {path target : String} {kind : IdKind} {element : Element} {e : Expression}
  {current updates result : List Value}

theorem checkOperator_ok (h : Matcher.checkOperator e.operator = .ok ()) :
    e.operator = .eq ∨ e.operator = .strictEq := by
  unfold Matcher.checkOperator at h
  split_ifs at h with hoperator
  simpa using hoperator

theorem updateReferences_ok
    (h : updateReferences path target kind e current updates = .ok result) :
    ∃ update id before old after, updates = [update] ∧ literalId? kind e.literal = some id ∧
      current = before ++ old :: after ∧ old.referenceId? = some id ∧
      (∀ item ∈ before, item.referenceId? ≠ some id) ∧
      result = collapse Value.referenceId? (before ++ asReference target update :: after) := by
  unfold updateReferences at h
  split at h
  · cases h
  · next id hid =>
    obtain ⟨update, hupdate, h⟩ := bind_ok_iff.mp h
    dsimp only at h
    split_ifs at h with hany
    cases h
    obtain ⟨before, old, after, hcurrent, hold, hbefore⟩ := exists_first hany
    refine ⟨update, id, before, old, after, single_ok hupdate, hid, hcurrent, by simpa using hold,
      by simpa using hbefore, ?_⟩
    rw [hcurrent, editFirst_append hbefore hold]

/-- Editing the items that an expression holds of is what an update by it makes of a list. -/
theorem selected_edit {update : Value} {edit : Value → Value}
    (helement : ∀ target kind, element ≠ .reference target kind)
    (hoperator : e.operator = .eq ∨ e.operator = .strictEq)
    (hedit : ∀ item ∈ current, element.Becomes update item (edit item)) :
    Selected e update current element (e.edit edit current) :=
  .items helement hoperator (Expression.rewrites_edit hedit hoperator)

/-- **An update by an expression** has one update value. In a list of references it replaces the
first one to the id of the literal; in any other list it rewrites the selected items: with `=` all
that equal the literal, with `===` the first that does. -/
theorem update_selected (honce : ∀ update ∈ updates, update.KeysOnce)
    (h : update path element (.expression e) current updates = .ok result) :
    ∃ update, updates = [update] ∧ Selected e update current element result := by
  rw [update] at h
  split at h
  · next hchecked =>
    have hoperator := checkOperator_ok hchecked
    -- an object laid over the items is the only update value
    have hoverlay : ∀ {only : Value} {fields : Object}, single path updates = .ok only →
        updateFields path only = .ok fields → updates = [.object fields] ∧
          ∀ item, Overlaid fields item (overlay fields item) := by
      intro only fields honly hfields
      obtain rfl := updateFields_ok hfields
      obtain rfl := single_ok honly
      exact ⟨rfl, overlaid_overlay (honce _ (List.mem_singleton_self _)).keys⟩
    unfold updateByExpression at h
    split at h
    · split_ifs at h with haddresses
      · obtain ⟨update, id, before, old, after, hupdates, hid, hcurrent, hold, hfirst, rfl⟩ :=
          updateReferences_ok h
        obtain ⟨hitem, hstrict⟩ : e.path = Expression.itemKey ∧ e.operator = .strictEq := by
          simpa [Expression.addressesItem] using haddresses
        exact ⟨update, hupdates, .reference hitem hstrict hid hcurrent hold hfirst⟩
      · cases h
    · split_ifs at h
      · cases h
      · cases h
      · obtain ⟨only, honly, h⟩ := bind_ok_iff.mp h
        obtain ⟨fields, hfields, h⟩ := bind_ok_iff.mp h
        split_ifs at h
        cases h
        obtain ⟨hupdates, hbecomes⟩ := hoverlay honly hfields
        exact ⟨_, hupdates, selected_edit nofun hoperator fun item _ => ⟨_, rfl, hbecomes item⟩⟩
    · split_ifs at h
      · cases h
      · obtain ⟨only, honly, h⟩ := bind_ok_iff.mp h
        obtain ⟨fields, hfields, h⟩ := bind_ok_iff.mp h
        cases h
        obtain ⟨hupdates, hbecomes⟩ := hoverlay honly hfields
        exact ⟨_, hupdates, selected_edit nofun hoperator fun item _ => ⟨_, rfl, hbecomes item⟩⟩
    · obtain ⟨only, honly, h⟩ := bind_ok_iff.mp h
      cases h
      exact ⟨only, single_ok honly, selected_edit nofun hoperator fun _ _ => rfl⟩
    · next hreference hdocument hobject hany =>
      split_ifs at h
      · cases h
      · obtain ⟨only, honly, h⟩ := bind_ok_iff.mp h
        cases h
        refine ⟨only, single_ok honly, selected_edit hreference hoperator fun _ _ => ?_⟩
        cases element with
        | document target => exact absurd rfl (hdocument target)
        | object fields => exact absurd rfl (hobject fields)
        | _ => rfl
  · cases h

/-! ### The lines of an order -/

/-- The lines of an order, one of which has no fields. -/
def lines : List Value :=
  [.object [("name", .string "a"), ("price", .ofNat 1)], .object [("name", .string "b")],
    .string "free", .object [("name", .string "a")]]

/-- The lines after those with a name got a price. -/
def pricedLines : List Value :=
  [.object [("name", .string "a"), ("price", .ofNat 3)], .object [("name", .string "b")],
    .string "free", .object [("name", .string "a"), ("price", .ofNat 3)]]

/-- A price is given to all lines with a name. -/
theorem lines_priced :
    let byName : Expression := ⟨"name", .eq, .text "a"⟩
    let price : Value := .object [("price", .ofNat 3)]
    update "lines" (.object []) (.expression byName) lines [price] = .ok pricedLines ∧
      ∃ update, [price] = [update] ∧ Selected byName update lines (.object []) pricedLines := by
  have hupdate : update "lines" (.object []) (.expression ⟨"name", .eq, .text "a"⟩) lines
      [.object [("price", .ofNat 3)]] = .ok pricedLines := rfl
  refine ⟨hupdate, update_selected (fun update hin => ?_) hupdate⟩
  obtain rfl := List.mem_singleton.mp hin
  exact .object (by simp) fun field hfield => by
    obtain rfl := List.mem_singleton.mp hfield
    exact .number

end Listing

end DocumentDb
