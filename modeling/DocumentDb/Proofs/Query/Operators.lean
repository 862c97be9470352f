import DocumentDb.Query.Comparison
import Mathlib.Data.String.Basic
import Mathlib.Order.Compare

/-!
# The operators of filters

Equality and the order of a filter are two functions. Each of them converts numeric texts to
numbers, but not in the same cases: equality does so for a text and a number, and the order for two
texts as well. So the operators agree with one another wherever there is an order
(`Operand.looseEq_of_order`), except for two texts that spell one number in different ways. These
are in order as one number, and they are not equal (`operators_coherent`).
-/

namespace DocumentDb

/-- A number has no order to itself but equality; the undefined one has none at all. -/
theorem Double.order?_self {x : Double} {o : Ordering} (h : x.order? x = some o) : o = .eq := by
  cases x with
  | finite value =>
    rw [Double.order?, Finite.order, compare_eq_iff_eq.mpr rfl] at h
    exact (Option.some.inj h).symm
  | infinite negative =>
    rw [Double.order?, compare_eq_iff_eq.mpr rfl] at h
    exact (Option.some.inj h).symm
  | undefined => cases h

namespace Operand

/-- Two texts that spell one number in different ways. -/
def SpelledApart (a b : Operand) : Prop :=
  ∃ s t x y, a = text s ∧ b = text t ∧ s ≠ t ∧ readDouble? (Text.trim s) = some x ∧
    readDouble? (Text.trim t) = some y ∧ x.same y = true

@[simp] theorem number?_text (s : String) : (text s).number? = readDouble? (Text.trim s) := by
  rw [number?]

@[simp] theorem looseEq_text (s t : String) : (text s).looseEq (text t) = (s == t) := rfl

theorem looseEq_number {x : Double} {b : Operand} (hb : b.isNull = false) :
    (number x).looseEq b = (number x).sameNumber b := by
  have hnumber : (number x).isNull = false := rfl
  simp only [looseEq, hnumber, hb, Bool.or_self, Bool.false_eq_true, ↓reduceIte]

theorem text_looseEq_number (s : String) (y : Double) :
    (text s).looseEq (number y) = (text s).sameNumber (number y) := by
  simp only [looseEq, isNull, Bool.or_self, Bool.false_eq_true, ↓reduceIte]

@[simp] theorem looseEq_bool (p q : Bool) : (bool p).looseEq (bool q) = (p == q) := rfl

section Order
variable {a b : Operand} {o : Ordering}

/-- Where numbers are compared, equality is one of the answers. -/
theorem sameNumber_of_order {x y : Double} (ha : a.number? = some x) (hb : b.number? = some y)
    (h : x.order? y = some o) : a.sameNumber b = (o == .eq) := by
  simp only [sameNumber, ha, hb, Double.same, h, Option.some_beq_some]

/-- The numbers of operands that are in order, unless both are texts or truth values. -/
theorem numbers_of_order (h : a.order? b = some o) (htexts : ∀ s t, a = text s → b ≠ text t)
    (htruths : ∀ p q, a = bool p → b ≠ bool q) :
    ∃ x y, a.number? = some x ∧ b.number? = some y ∧ x.order? y = some o := by
  unfold order? at h
  split at h
  · next s t => exact absurd rfl (htexts s t rfl)
  · next p q => exact absurd rfl (htruths p q rfl)
  · split at h
    · next x y hx hy => exact ⟨x, y, hx, hy, h⟩
    · cases h

/-- **Where there is an order, it tells what is equal**, unless two texts are spelled apart. -/
theorem looseEq_of_order (h : a.order? b = some o) (hspelled : ¬ SpelledApart a b) :
    a.looseEq b = (o == .eq) := by
  by_cases htexts : ∃ s t, a = text s ∧ b = text t
  · obtain ⟨s, t, rfl, rfl⟩ := htexts
    rw [looseEq_text]
    simp only [order?, number?_text] at h
    split at h
    · next x y hx hy =>
      by_cases hst : s = t
      · subst hst
        rw [hx] at hy
        obtain rfl := Option.some.inj hy
        rw [Double.order?_self h, beq_self_eq_true, beq_self_eq_true]
      · -- Two spellings of numbers that are not the same one.
        have hdiffer : x.same y ≠ true := fun hsame =>
          hspelled ⟨s, t, x, y, rfl, rfl, hst, hx, hy, hsame⟩
        rw [Double.same, h, Option.some_beq_some] at hdiffer
        rw [beq_eq_false_iff_ne.mpr hst, Bool.eq_false_iff.mpr hdiffer]
    · cases h
      rw [Bool.eq_iff_iff, beq_iff_eq, beq_iff_eq, compare_eq_iff_eq]
  by_cases htruths : ∃ p q, a = bool p ∧ b = bool q
  · obtain ⟨p, q, rfl, rfl⟩ := htruths
    cases h
    rw [looseEq_bool, Bool.eq_iff_iff, beq_iff_eq, beq_iff_eq, compare_eq_iff_eq]
  obtain ⟨x, y, hx, hy, hxy⟩ := numbers_of_order h (fun s t ha hb => htexts ⟨s, t, ha, hb⟩)
    fun p q ha hb => htruths ⟨p, q, ha, hb⟩
  rw [← sameNumber_of_order hx hy hxy]
  -- One of the two is a number; the other one is a number or a numeric text.
  cases a with
  | number =>
    refine looseEq_number ?_
    cases b with
    | number | text | bool | other => rfl
    | missing | null => cases hy
  | text s =>
    cases b with
    | number y => exact text_looseEq_number s y
    | text t => exact absurd ⟨s, t, rfl, rfl⟩ htexts
    | missing | null | bool | other => cases hy
  | missing | null | bool | other => cases hx

/-- Two texts that are spelled apart are in order as one number, and not equal. -/
theorem SpelledApart.order (h : SpelledApart a b) :
    a.order? b = some .eq ∧ a.looseEq b = false := by
  obtain ⟨s, t, x, y, rfl, rfl, hst, hx, hy, hsame⟩ := h
  rw [Double.same, beq_iff_eq] at hsame
  refine ⟨?_, beq_eq_false_iff_ne.mpr hst⟩
  simp only [order?, number?_text, hx, hy, hsame]

end Order

end Operand

/-- What the operators of an order say, when there is one. -/
theorem Operator.holds_of_order {a b : Operand} {o : Ordering} (h : a.order? b = some o) :
    Operator.lt.holds a b = (o == .lt) ∧ Operator.gt.holds a b = (o == .gt) ∧
    Operator.le.holds a b = (o == .lt || o == .eq) ∧
    Operator.ge.holds a b = (o == .gt || o == .eq) := by
  simp only [Operator.holds, h, Option.some_beq_some, and_self]

/-! ### Values and literals -/

/-- A value and a literal are in order: some operator of the order holds of them. -/
def InOrder (value? : Option Value) (literal : Literal) : Prop :=
  ∃ operator ∈ [Operator.lt, .le, .gt, .ge], compareValue value? operator literal = true

/-- **The operators cohere**: exactly one of `<`, `=` and `>` holds, and `<=` and `>=` hold where
one of two of them does. -/
structure Coherent (value? : Option Value) (literal : Literal) : Prop where
  one : [compareValue value? .lt literal, compareValue value? .eq literal,
    compareValue value? .gt literal].count true = 1
  le : compareValue value? .le literal =
    (compareValue value? .lt literal || compareValue value? .eq literal)
  ge : compareValue value? .ge literal =
    (compareValue value? .gt literal || compareValue value? .eq literal)

/-- A text and a text literal that spell one number in different ways. -/
def SpelledApart (value? : Option Value) (literal : Literal) : Prop :=
  ∃ s t x y, value? = some (.string s) ∧ literal = .text t ∧ s ≠ t ∧
    readDouble? (Text.trim s) = some x ∧ readDouble? (Text.trim t) = some y ∧ x.same y = true

section Values
variable {value? : Option Value} {literal : Literal}

theorem InOrder.order (h : InOrder value? literal) :
    ∃ o, (Operand.ofValue value?).order? (.ofLiteral literal) = some o := by
  obtain ⟨operator, hin, hholds⟩ := h
  refine Option.ne_none_iff_exists'.mp fun hnone => ?_
  simp only [List.mem_cons, List.not_mem_nil, or_false] at hin
  rcases hin with rfl | rfl | rfl | rfl <;> simp [compareValue, Operator.holds, hnone] at hholds

theorem spelledApart_iff : SpelledApart value? literal ↔
    Operand.SpelledApart (.ofValue value?) (.ofLiteral literal) := by
  constructor
  · rintro ⟨s, t, x, y, rfl, rfl, hst, hx, hy, hsame⟩
    exact ⟨s, t, x, y, rfl, rfl, hst, hx, hy, hsame⟩
  · rintro ⟨s, t, x, y, hs, ht, hst, hx, hy, hsame⟩
    match value?, literal, hs, ht with
    | some (.string _), .text _, rfl, rfl => exact ⟨s, t, x, y, rfl, rfl, hst, hx, hy, hsame⟩

end Values

/-- **The operators of filters cohere** where a value and a literal are in order, unless these are
texts that spell one number in different ways: of those `<=` and `>=` hold, and neither `<` nor `=`
nor `>` does. Whatever is compared, `!=` is the negation of `=`. -/
theorem operators_coherent (value? : Option Value) (literal : Literal) :
    compareValue value? .ne literal = !compareValue value? .eq literal ∧
    (InOrder value? literal → (Coherent value? literal ↔ ¬ SpelledApart value? literal)) ∧
    (SpelledApart value? literal →
      compareValue value? .le literal = true ∧ compareValue value? .ge literal = true ∧
      ∀ operator ∈ [Operator.lt, .eq, .gt], compareValue value? operator literal = false) := by
  have happart : SpelledApart value? literal →
      compareValue value? .le literal = true ∧ compareValue value? .ge literal = true ∧
      ∀ operator ∈ [Operator.lt, .eq, .gt], compareValue value? operator literal = false := by
    intro hspelled
    obtain ⟨horder, hloose⟩ := (spelledApart_iff.mp hspelled).order
    obtain ⟨hlt, hgt, hle, hge⟩ := Operator.holds_of_order horder
    refine ⟨hle, hge, fun operator hin => ?_⟩
    simp only [List.mem_cons, List.not_mem_nil, or_false] at hin
    rcases hin with rfl | rfl | rfl
    · exact hlt
    · exact hloose
    · exact hgt
  refine ⟨rfl, fun hordered => ⟨fun hcoherent hspelled => ?_, fun hspelled => ?_⟩, happart⟩
  · obtain ⟨-, hge, hnone⟩ := happart hspelled
    have hgreater := hnone .gt (by simp)
    have hequal := hnone .eq (by simp)
    have hboth := hcoherent.ge
    rw [hge, hgreater, hequal] at hboth
    cases hboth
  · obtain ⟨o, horder⟩ := hordered.order
    obtain ⟨hlt, hgt, hle, hge⟩ := Operator.holds_of_order horder
    have heq : compareValue value? .eq literal = (o == .eq) :=
      Operand.looseEq_of_order horder (mt spelledApart_iff.mpr hspelled)
    constructor
    · rw [heq, compareValue, hlt, compareValue, hgt]
      cases o <;> rfl
    · rw [heq, compareValue, hle, compareValue, hlt]
    · rw [heq, compareValue, hge, compareValue, hgt]

/-- **Two spellings of one number** are in order, and neither equal nor one before the other. -/
theorem spellings_incoherent :
    InOrder (some (.string "16")) (Literal.parse "\"16.0\"") ∧
    ¬ Coherent (some (.string "16")) (Literal.parse "\"16.0\"") ∧
    compareValue (some (.string "16")) .ge (Literal.parse "\"16.0\"") = true ∧
    compareValue (some (.string "16")) .gt (Literal.parse "\"16.0\"") = false ∧
    compareValue (some (.string "16")) .eq (Literal.parse "\"16.0\"") = false := by
  have hge : compareValue (some (.string "16")) .ge (Literal.parse "\"16.0\"") = true := by
    decide +kernel
  have hgt : compareValue (some (.string "16")) .gt (Literal.parse "\"16.0\"") = false := by
    decide +kernel
  have heq : compareValue (some (.string "16")) .eq (Literal.parse "\"16.0\"") = false := by
    decide +kernel
  refine ⟨⟨.ge, by simp, hge⟩, fun hcoherent => ?_, hge, hgt, heq⟩
  have hboth := hcoherent.ge
  rw [hge, hgt, heq] at hboth
  cases hboth

end DocumentDb
