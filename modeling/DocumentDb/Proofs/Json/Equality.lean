import DocumentDb.Json.Equality
import DocumentDb.Proofs.Json.Objects
import Mathlib.Data.List.Forall2
import Mathlib.Data.List.Perm.Subperm

/-!
# Equal values

Two arrays are equal if their items are, two objects if they have equally many fields and the fields
of one have equal ones in the other. Equality up to the kinds of numbers is transitive, and it is
symmetric on values in which every object has each of its keys once: objects are compared from one
side only, so symmetry needs the keys to be counted.

* `Value.agrees_object_iff_keys`: equal objects have the same keys with equal values.
* `Value.same_congr`: equal values are equal to the same values.
-/

namespace DocumentDb

theorem Number.same_iff {m n : Number} :
    Number.same m n = true ↔ m.toFinite.units = n.toFinite.units := by
  simp [Number.same, Finite.order]

namespace Value

/-! ### Arrays and objects -/

section Composite
variable {numbers : Number → Number → Bool}

theorem itemsAgree_iff {xs ys : List Value} (hlength : xs.length = ys.length) :
    itemsAgree numbers xs ys = true ↔ List.Forall₂ (fun x y => agrees numbers x y = true) xs ys := by
  induction xs generalizing ys with
  | nil =>
    cases ys with
    | nil => simp [itemsAgree]
    | cons y ys => simp at hlength
  | cons x xs ih =>
    cases ys with
    | nil => simp at hlength
    | cons y ys =>
      have hrest : xs.length = ys.length := by simpa using hlength
      simp [itemsAgree, ih hrest]

/-- Arrays are equal if their items are. -/
theorem agrees_array_iff {xs ys : List Value} : agrees numbers (.array xs) (.array ys) = true ↔
    List.Forall₂ (fun x y => agrees numbers x y = true) xs ys := by
  rw [agrees, Bool.and_eq_true, beq_iff_eq]
  constructor
  · rintro ⟨hlength, hitems⟩
    exact (itemsAgree_iff hlength).mp hitems
  · intro h
    exact ⟨h.length_eq, (itemsAgree_iff h.length_eq).mpr h⟩

theorem fieldsAgree_iff {xs : List (String × Value)} {ys : Object} :
    fieldsAgree numbers xs ys = true ↔ ∀ field ∈ xs, ∃ y, Object.value? ys field.1 = some y ∧
      agrees numbers field.2 y = true := by
  induction xs with
  | nil => simp [fieldsAgree]
  | cons field rest ih =>
    obtain ⟨key, x⟩ := field
    rw [fieldsAgree, Bool.and_eq_true, ih, List.forall_mem_cons]
    refine and_congr_left fun _ => ?_
    cases Object.value? ys key with
    | none => simp
    | some y => simp

/-- Objects are equal if they have equally many fields and each field of one has an equal one in the
other. -/
theorem agrees_object_iff {xs ys : Object} : agrees numbers (.object xs) (.object ys) = true ↔
    xs.length = ys.length ∧ ∀ field ∈ xs, ∃ y, Object.value? ys field.1 = some y ∧
      agrees numbers field.2 y = true := by
  rw [agrees, Bool.and_eq_true, beq_iff_eq, fieldsAgree_iff]

/-- Objects with distinct keys are equal if they have the same keys and each of them has equal
values. -/
theorem agrees_object_iff_keys {xs ys : Object} (hkeys : (Object.keys xs).Nodup) :
    agrees numbers (.object xs) (.object ys) = true ↔ (Object.keys xs).Perm (Object.keys ys) ∧
      ∀ key x y, Object.value? xs key = some x → Object.value? ys key = some y →
        agrees numbers x y = true := by
  rw [agrees_object_iff]
  constructor
  · rintro ⟨hlength, hfields⟩
    have hsubset : Object.keys xs ⊆ Object.keys ys := by
      intro key hkey
      obtain ⟨field, hin, rfl⟩ := List.mem_map.mp hkey
      obtain ⟨y, hy, -⟩ := hfields field hin
      exact Object.mem_keys_of_value? hy
    have hlengths : (Object.keys ys).length ≤ (Object.keys xs).length := by
      simp [Object.keys, hlength]
    -- distinct keys that are as many as the others leave none of them out
    refine ⟨(List.subperm_of_subset hkeys hsubset).perm_of_length_le hlengths, ?_⟩
    intro key x y hx hy
    obtain ⟨other, hother, hagree⟩ := hfields _ (Object.mem_of_value? hx)
    obtain rfl : y = other := Option.some.inj (hy.symm.trans hother)
    exact hagree
  · rintro ⟨hperm, hvalues⟩
    refine ⟨by simpa [Object.keys] using hperm.length_eq, fun field hin => ?_⟩
    have hkey : field.1 ∈ Object.keys ys := hperm.subset (List.mem_map_of_mem hin)
    obtain ⟨y, hy⟩ := Object.exists_value?_of_mem_keys hkey
    exact ⟨y, hy, hvalues _ _ _ (Object.value?_of_mem hkeys field hin) hy⟩

end Composite

/-! ### Symmetry and transitivity -/

/-- Induction on the values inside a value. -/
@[elab_as_elim]
theorem inner_induction {motive : Value → Prop} (null : motive .null)
    (bool : ∀ b, motive (.bool b)) (number : ∀ n, motive (.number n))
    (string : ∀ s, motive (.string s))
    (array : ∀ items, (∀ item ∈ items, motive item) → motive (.array items))
    (object : ∀ fields, (∀ field ∈ fields, motive field.2) → motive (.object fields))
    (value : Value) : motive value := by
  refine @Value.rec motive (fun items => ∀ item ∈ items, motive item)
    (fun fields => ∀ field ∈ fields, motive field.2) (fun field => motive field.2)
    null bool number string array object ?_ ?_ ?_ ?_ ?_ value
  · simp
  · exact fun _ _ hfirst hrest => List.forall_mem_cons.mpr ⟨hfirst, hrest⟩
  · simp
  · exact fun _ _ hfirst hrest => List.forall_mem_cons.mpr ⟨hfirst, hrest⟩
  · exact fun _ _ hvalue => hvalue

theorem forall₂_comp {first second both : Value → Value → Prop} {xs ys zs : List Value}
    (hxy : List.Forall₂ first xs ys) (hyz : List.Forall₂ second ys zs)
    (hcomp : ∀ x y z, first x y → second y z → both x z) : List.Forall₂ both xs zs := by
  induction hxy generalizing zs with
  | nil =>
    cases hyz
    exact .nil
  | cons hx _ ih =>
    cases hyz with
    | cons hy hrest => exact .cons (hcomp _ _ _ hx hy) (ih hrest)

section Laws
variable {numbers : Number → Number → Bool} {a b : Value}

/-- **Equality is reflexive** if it is so on numbers. -/
theorem KeysOnce.agrees_refl (hnumbers : ∀ n, numbers n n = true) (ha : a.KeysOnce) :
    agrees numbers a a = true := by
  induction ha with
  | null | bool | string => simp [agrees]
  | number =>
    rw [agrees]
    exact hnumbers _
  | array _ ih => exact agrees_array_iff.mpr (List.forall₂_same.mpr ih)
  | object hkeys _ ih =>
    refine (agrees_object_iff_keys hkeys).mpr ⟨List.Perm.refl _, fun key x y hx hy => ?_⟩
    obtain rfl : x = y := Option.some.inj (hx.symm.trans hy)
    exact ih _ (Object.mem_of_value? hx)

/-- **Equality is symmetric** if it is so on numbers. -/
theorem KeysOnce.agrees_symm (hnumbers : ∀ m n, numbers m n = true → numbers n m = true)
    (ha : a.KeysOnce) (h : agrees numbers a b = true) : agrees numbers b a = true := by
  induction ha generalizing b with
  | null => cases b <;> simp_all [agrees]
  | bool => cases b <;> simp_all [agrees]
  | number =>
    cases b with
    | number n =>
      rw [agrees] at h ⊢
      exact hnumbers _ _ h
    | _ => simp [agrees] at h
  | string => cases b <;> simp_all [agrees]
  | array _ ih =>
    cases b with
    | array ys =>
      rw [agrees_array_iff] at h ⊢
      have hboth := (List.forall₂_and_left _ _).mpr ⟨ih, h⟩
      exact (hboth.imp fun x y hxy => hxy.1 hxy.2).flip
    | _ => simp [agrees] at h
  | object hkeys _ ih =>
    cases b with
    | object ys =>
      obtain ⟨hperm, hvalues⟩ := (agrees_object_iff_keys hkeys).mp h
      refine (agrees_object_iff_keys (hperm.nodup hkeys)).mpr ⟨hperm.symm, ?_⟩
      intro key y x hy hx
      exact ih _ (Object.mem_of_value? hx) (hvalues key x y hx hy)
    | _ => simp [agrees] at h

/-- **Equality is transitive** if it is so on numbers, even where keys stand twice. -/
theorem agrees_trans
    (hnumbers : ∀ l m n, numbers l m = true → numbers m n = true → numbers l n = true)
    {a b c : Value} (hab : agrees numbers a b = true) (hbc : agrees numbers b c = true) :
    agrees numbers a c = true := by
  induction a using inner_induction generalizing b c with
  | null => cases b <;> cases c <;> simp_all [agrees]
  | bool => cases b <;> cases c <;> simp_all [agrees]
  | number =>
    cases b with
    | number m =>
      cases c with
      | number n =>
        rw [agrees] at hab hbc ⊢
        exact hnumbers _ _ _ hab hbc
      | _ => simp [agrees] at hbc
    | _ => simp [agrees] at hab
  | string => cases b <;> cases c <;> simp_all [agrees]
  | array xs ih =>
    cases b with
    | array ys =>
      cases c with
      | array zs =>
        rw [agrees_array_iff] at hab hbc ⊢
        have hboth := (List.forall₂_and_left _ _).mpr ⟨ih, hab⟩
        exact forall₂_comp hboth hbc fun x y z hxy hyz => hxy.1 hxy.2 hyz
      | _ => simp [agrees] at hbc
    | _ => simp [agrees] at hab
  | object xs ih =>
    cases b with
    | object ys =>
      cases c with
      | object zs =>
        rw [agrees_object_iff] at hab hbc ⊢
        refine ⟨hab.1.trans hbc.1, fun field hin => ?_⟩
        obtain ⟨y, hy, hxy⟩ := hab.2 field hin
        obtain ⟨z, hz, hyz⟩ := hbc.2 _ (Object.mem_of_value? hy)
        exact ⟨z, hz, ih field hin hxy hyz⟩
      | _ => simp [agrees] at hbc
    | _ => simp [agrees] at hab

variable {c : Value}

theorem KeysOnce.same_refl (ha : a.KeysOnce) : same a a = true :=
  ha.agrees_refl fun _ => Number.same_iff.mpr rfl

theorem KeysOnce.same_symm (ha : a.KeysOnce) (h : same a b = true) : same b a = true :=
  ha.agrees_symm (fun _ _ h => Number.same_iff.mpr (Number.same_iff.mp h).symm) h

theorem same_trans (hab : same a b = true) (hbc : same b c = true) : same a c = true := by
  refine agrees_trans (fun l m n hlm hmn => ?_) hab hbc
  exact Number.same_iff.mpr ((Number.same_iff.mp hlm).trans (Number.same_iff.mp hmn))

/-- **Equal values are equal to the same values.** -/
theorem same_congr (ha : a.KeysOnce) (h : same a b = true) (c : Value) : same a c = same b c := by
  rw [Bool.eq_iff_iff]
  exact ⟨same_trans (ha.same_symm h), same_trans h⟩

/-- The same values are equal to equal values. -/
theorem same_congr_right (ha : a.KeysOnce) (h : same a b = true) (c : Value) :
    same c a = same c b := by
  rw [Bool.eq_iff_iff]
  exact ⟨fun hca => same_trans hca h, fun hcb => same_trans hcb (ha.same_symm h)⟩

end Laws

end Value

end DocumentDb
