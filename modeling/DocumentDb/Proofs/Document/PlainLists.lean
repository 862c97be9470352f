import DocumentDb.Proofs.Document.ArrayRules
import DocumentDb.Proofs.Document.References
import DocumentDb.Proofs.Document.Selection
import DocumentDb.Proofs.Schema.Idempotence

/-!
# Lists of plain values

The items of an untyped list and of a list of single values are stored as what they are cast to,
one by one: none is dropped, and no two are merged. An edit writes the whole list, so the items that
it only keeps are cast once more. They stay as they are, since every stored item is a cast already
(`Object.KeepsCasts`) and a value that was cast is cast to itself or refused.
-/

namespace DocumentDb

/-! ### Casts of items -/

namespace Element

/-- **The items are plain values**: anything, or values of one type. -/
inductive Plain : Element → Prop
  | any : Plain .any
  | scalar {kind : ScalarKind} {rules : Rules} : Plain (.scalar kind rules)

/-- **What a value becomes** as an item of a list of plain values. -/
inductive Casts : Element → Value → Value → Prop
  | any {value : Value} : Casts .any value value
  | scalar {kind : ScalarKind} {rules : Rules} {value built : Value}
    (h : rules.Casts kind value built) : Casts (.scalar kind rules) value built

/-- All items are casts of some values. -/
def Stores (element : Element) (items : List Value) : Prop :=
  ∀ item ∈ items, ∃ raw, element.Casts raw item

variable {element : Element} {items built values : List Value}

/-- A value that was cast stays as it is. -/
theorem Casts.again_eq {raw item again : Value} (h : element.Casts raw item)
    (hagain : element.Casts item again) : again = item := by
  cases h with
  | any => cases hagain; rfl
  | scalar h =>
    cases hagain with
    | scalar hagain => exact h.again_eq hagain

theorem stores_nil : element.Stores [] := nofun

/-- Any items may be stored in an untyped list. -/
theorem stores_any : Element.any.Stores items := fun item _ => ⟨item, .any⟩

theorem Stores.of_mem {kept : List Value} (h : element.Stores items)
    (hkept : ∀ item ∈ kept, item ∈ items) : element.Stores kept := fun item hin =>
  h item (hkept item hin)

theorem stores_of_casts (h : List.Forall₂ element.Casts items built) : element.Stores built := by
  induction h with
  | nil => exact stores_nil
  | cons hfirst _ ih => exact List.forall_mem_cons.mpr ⟨⟨_, hfirst⟩, ih⟩

/-- **Stored items stay as they are** when they are cast once more. -/
theorem Stores.eq_of_casts (hstores : element.Stores items)
    (h : List.Forall₂ element.Casts items built) : built = items := by
  induction h with
  | nil => rfl
  | cons hfirst _ ih =>
    obtain ⟨⟨raw, hraw⟩, hrest⟩ := List.forall_mem_cons.mp hstores
    rw [hraw.again_eq hfirst, ih hrest]

/-- Stored items with values behind them become the items with the casts of the values. -/
theorem Stores.append_casts (hstores : element.Stores items)
    (h : List.Forall₂ element.Casts (items ++ values) built) :
    ∃ casts, List.Forall₂ element.Casts values casts ∧ built = items ++ casts := by
  induction items generalizing built with
  | nil => exact ⟨built, h, rfl⟩
  | cons item rest ih =>
    obtain ⟨⟨raw, hraw⟩, hrest⟩ := List.forall_mem_cons.mp hstores
    cases h with
    | cons hfirst hothers =>
      obtain ⟨casts, hcasts, rfl⟩ := ih hrest hothers
      exact ⟨casts, hcasts, by rw [hraw.again_eq hfirst, List.cons_append]⟩

/-- **Rewritten items that are cast once more**: the new ones become casts of the replacement, and
the others stay as they are. -/
theorem Stores.rewrites_casts (hstores : element.Stores items) {e : Expression}
    {replacement : Value} {edited : List Value}
    (hedited : e.Rewrites (fun _ new => new = replacement) items edited)
    (h : List.Forall₂ element.Casts edited built) :
    e.Rewrites (fun _ new => element.Casts replacement new) items built := by
  have hcast : ∀ (i : Nat) item, edited[i]? = some item →
      ∃ new, built[i]? = some new ∧ element.Casts item new := by
    intro i item hitem
    obtain ⟨hlt, rfl⟩ := List.getElem?_eq_some_iff.mp hitem
    have hbuilt : i < built.length := h.length_eq ▸ hlt
    exact ⟨built[i], List.getElem?_eq_getElem hbuilt, h.get hlt hbuilt⟩
  refine ⟨h.length_eq.symm.trans hedited.length, fun i item hselects hitem => ?_,
    fun i hselects => ?_⟩
  · obtain ⟨new, hnew, rfl⟩ := hedited.selected i item hselects hitem
    exact hcast i new hnew
  · have hsame := hedited.others i hselects
    cases hitem : items[i]? with
    | none =>
      rw [hitem, List.getElem?_eq_none_iff, h.length_eq] at hsame
      exact List.getElem?_eq_none_iff.mpr hsame
    | some item =>
      obtain ⟨again, hagain, hcasts⟩ := hcast i item (hsame.trans hitem)
      obtain ⟨raw, hraw⟩ := hstores item (List.mem_of_getElem? hitem)
      rw [hagain, hraw.again_eq hcasts]

end Element

/-! ### What edits make of the items -/

namespace Listing

variable {path : String} {element : Element} {current values updates result : List Value}
  (hplain : element.Plain)
include hplain

theorem insert_plain : insert path element current values = pure (current ++ values) := by
  cases hplain <;> rfl

theorem remove_plain : remove element current values =
    current.filter fun item => !values.any (Value.same item) := by
  cases hplain <;> rfl

/-- An update by an expression puts its only value in the place of the selected items. -/
theorem update_plain {e : Expression}
    (h : update path element (.expression e) current updates = .ok result) :
    ∃ replacement, updates = [replacement] ∧
      e.Rewrites (fun _ new => new = replacement) current result := by
  rw [update] at h
  split at h
  · next hchecked =>
    have hedit : ∃ replacement, single path updates = .ok replacement ∧
        e.edit (fun _ => replacement) current = result := by
      cases hplain with
      | any =>
        obtain ⟨replacement, honly, h⟩ := bind_ok_iff.mp h
        exact ⟨replacement, honly, Except.ok.inj h⟩
      | scalar =>
        simp only [updateByExpression] at h
        split_ifs at h
        · cases h
        · obtain ⟨replacement, honly, h⟩ := bind_ok_iff.mp h
          exact ⟨replacement, honly, Except.ok.inj h⟩
    obtain ⟨replacement, honly, rfl⟩ := hedit
    exact ⟨replacement, single_ok honly,
      Expression.rewrites_edit (fun _ _ => rfl) (checkOperator_ok hchecked)⟩
  · cases h

end Listing

/-! ### Building lists -/

namespace Build

variable {path : String} {node : Node} {element : Element}

theorem castItems_casts {kind : ScalarKind} {rules : Rules} {index : Nat} {items built : List Value}
    (h : castItems path kind rules index items = .ok built) :
    List.Forall₂ (Element.scalar kind rules).Casts items built := by
  induction items generalizing index built with
  | nil => cases h; exact .nil
  | cons item rest ih =>
    obtain ⟨first, hfirst, h⟩ := bind_ok_iff.mp h
    obtain ⟨others, hothers, h⟩ := bind_ok_iff.mp h
    cases h
    exact .cons (.scalar (Rules.cast_ok_iff.mp hfirst)) (ih hothers)

/-- **A list of plain values is read** item by item, whatever documents there are. -/
theorem exists_reads (hnode : node.element? = some element) (hplain : element.Plain)
    (items : List Value) : ∃ read : String → Except Error (List Value),
      Reads node items (fun path => lift (read path)) ∧
      ∀ path built, read path = .ok built → List.Forall₂ element.Casts items built := by
  have hsame : List.Forall₂ Element.any.Casts items items := List.forall₂_same.mpr fun _ _ => .any
  cases node with
  | array rules =>
    cases hnode
    refine ⟨fun path => rules.checkItems path items >>= fun _ => pure items, fun path scope => ?_,
      fun path built h => ?_⟩
    · have hbuild : buildValue path (.array rules) (some (.array items)) scope = (do
          lift (rules.checkItems path items)
          pure (some (.array items))) := by
        rw [buildValue]
        rfl
      rw [hbuild]
      dsimp only
      funext context work
      cases rules.checkItems path items <;> rfl
    · obtain ⟨-, -, h⟩ := bind_ok_iff.mp h
      cases h
      exact hsame
  | list inner =>
    cases hnode
    cases hplain with
    | any =>
      refine ⟨fun _ => pure items, fun path scope => ?_, fun path built h => ?_⟩
      · rw [buildValue]
        simp only [buildItems]
        rfl
      · cases h
        exact hsame
    | scalar =>
      refine ⟨fun path => castItems path _ _ 0 items, fun path scope => ?_,
        fun path built h => castItems_casts h⟩
      rw [buildValue]
      simp only [buildItems]
  | _ => cases hnode

/-- A list is no nested object. -/
theorem not_nested (hnode : node.element? = some element) (inner : Fields) :
    node ≠ .nested inner := by
  rintro rfl
  cases hnode

theorem injected?_list (hnode : node.element? = some element) (scope : Scope) :
    injected? node scope = none := by
  cases node with
  | reference => cases hnode
  | _ => rfl

/-- **What is built for a list of plain values**: casts, whatever is given for it. -/
theorem buildValue_stores {context : Context} {scope : Scope} {value? : Option Value}
    (hnode : node.element? = some element) (hplain : element.Plain) :
    Yields context (buildValue path node value? scope) fun built =>
      ∀ value, built = some value → ∃ items, value = .array items ∧ element.Stores items := by
  cases node with
  | array rules =>
    cases hnode
    refine (buildArray_stores value?).mono fun built hbuilt value hvalue => ?_
    obtain ⟨items, rfl, -⟩ := hbuilt.passes_iff hvalue
    exact ⟨items, rfl, Element.stores_any⟩
  | list inner =>
    cases hnode
    cases value? with
    | none =>
      unfold buildValue
      exact yields_pure nofun
    | some value =>
      cases value with
      | null =>
        unfold buildValue
        refine yields_pure fun value hvalue => ?_
        cases hvalue
        exact ⟨[], rfl, Element.stores_nil⟩
      | array items =>
        have hnode : (Node.list element).element? = some element := rfl
        obtain ⟨read, hread, hcasts⟩ := exists_reads hnode hplain items
        rw [hread]
        refine yields_lift.bind fun built hbuilt => yields_pure fun value hvalue => ?_
        cases hvalue
        exact ⟨built, rfl, Element.stores_of_casts (hcasts _ _ hbuilt)⟩
      | _ =>
        unfold buildValue
        exact yields_fail
  | _ => cases hnode

end Build

/-! ### Stored lists -/

/-- **A document keeps its lists of plain values as they were cast**, wherever they are declared but
under the keys that documents keep by themselves. -/
def Object.KeepsCasts (registry : Registry) (collection : String) (document : Document) : Prop :=
  ∀ tree, registry.tree? collection = some tree → ∀ name rest node element,
    tree.fields.follow? (name :: rest) = some node → node.element? = some element →
      element.Plain → name ∉ tree.managedKeys → document.HoldsAt
        (fun value => ∃ items, value = .array items ∧ element.Stores items) (name :: rest)

/-- **Casts are all that is ever stored** in lists of plain values. -/
theorem keepsCasts_vetting {context : Context} {shardMax : Nat}
    (hlimit : ∀ collection state, context.state collection = .ok state → state.shardMax = shardMax)
    (hregistry : context.registry.Proper) (hfetched : ∀ collection id document,
      context.fetch collection id = .ok (some document) →
        Object.KeepsCasts context.registry collection document) :
    Vetting context shardMax (Object.KeepsCasts context.registry) where
  limit := hlimit
  fetched := hfetched
  inserted := by
    intro collection tree id path input scope work after fields htree _ _ hbuilt own hown name rest
      node element hfollow hnode hplain hname
    obtain rfl : tree = own := Option.some.inj (htree.symm.trans hown)
    have hholds := (Build.yields_logic.buildFields_holdsAt Build.yields_any
      (Build.injected?_list hnode) (fun _ _ _ => Build.buildValue_stores hnode hplain)
      (hregistry.tree? htree).fields hfollow work).of_ok hbuilt
    exact hholds.congr (value?_new hname context.now id fields)
  changed := by
    intro collection tree existing path patch scope work after merged htree hexisting _ hmerged own
      hown name rest node element hfollow hnode hplain hname
    obtain rfl : tree = own := Option.some.inj (htree.symm.trans hown)
    have hbefore := hexisting tree htree name rest node element hfollow hnode hplain hname
    have hholds := (Build.yields_logic.mergeFields_holdsAt Build.yields_any Build.yields_any
      (Build.not_nested hnode) (fun _ _ _ => Build.buildValue_stores hnode hplain) hfollow hbefore
        work).of_ok hmerged
    exact hholds.congr (value?_changed hname context.now merged)

/-- **Writing a list back** stores what its items are cast to, if the document fits. -/
theorem Build.change_plain {context : Context} {work : Work} {collection path name : String}
    {rest : List String} {tree : Tree} {node : Node} {element : Element} {existing : Document}
    {id : DocId} {items : List Value} {space : IdSpace}
    (htree : context.registry.tree? collection = some tree)
    (hspace : work.found context collection = .ok space) (hid : existing.id? = some id)
    (hpath : Text.splitAt '.' path = name :: rest)
    (hfollow : tree.fields.follow? (name :: rest) = some node)
    (hnode : node.element? = some element) (hplain : element.Plain)
    (hname : name ∉ tree.managedKeys) :
    Ensures (change collection existing (Listing.patch path items) context) work
      (fun changed after => ∃ built, List.Forall₂ element.Casts items built ∧
        changed = tree.withList context.now existing (name :: rest) built ∧
        after.pending = work.pending)
      (fun _ _ => True) := by
  obtain ⟨read, hread, hcasts⟩ := exists_reads hnode hplain items
  obtain ⟨field, hchange⟩ := change_behind context work htree hid hpath hread (not_nested hnode)
    hfollow hname
  unfold Ensures
  rw [hchange]
  refine ensures_bind.mpr (ensures_lift context (fun built hbuilt => ?_) fun _ _ => trivial)
  refine ensures_bind.mpr ((checkSize_steady hspace).mono ?_ fun _ _ _ => trivial)
  exact fun _ after h => ⟨built, hcasts field built hbuilt, rfl, h.2.pending⟩

end DocumentDb
