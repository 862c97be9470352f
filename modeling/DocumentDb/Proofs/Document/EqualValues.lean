import DocumentDb.Proofs.Document.PlainLists
import DocumentDb.Proofs.Json.Reordering
import DocumentDb.Proofs.Numeric.Rounding

/-!
# Where values are compared

The values that a field may have, the entries of `anyOf` and the values that are to be removed from
a list are all found by the same equality. It is an equivalence on values whose objects have
distinct keys and does not depend on the order of the keys, so equal values are allowed and removed
together. Numbers are compared as doubles, so two integers are taken for the same if they are
rounded to the same double: an integer below the 53 bits of a mantissa is told apart from all
others, but not every integer of 64 bits is.

* `same_equivalence`: the laws of the equality, and what equal values have in common.
* `integers_compared`: which values with integers are equal, allowed and removed.
-/

namespace DocumentDb

/-! ### Equal values -/

/-- **Values that rules and removals do not tell apart.** -/
structure Value.Interchangeable (a b : Value) : Prop where
  /-- A field may have one of them if it may have the other. -/
  listed : ∀ (rules : Rules) field,
    rules.checkListed field a = .ok () ↔ rules.checkListed field b = .ok ()
  /-- An entry of `anyOf` accepts both of them or none. -/
  accepted : ∀ choice : Choice, choice.accepts a = choice.accepts b
  chosen : ∀ (rules : Rules) field,
    rules.checkChoices field a = .ok () ↔ rules.checkChoices field b = .ok ()
  /-- The values that remove one of them from a list remove the other as well. -/
  removed : ∀ element : Element, element.Plain → ∀ values current others, a ∈ current → b ∈ others →
    (a ∈ Listing.remove element current values ↔ b ∈ Listing.remove element others values)

section Removal
variable {element : Element} {current values : List Value} {item : Value}

/-- An item stays in a list of plain values if it is equal to none of the values to remove. -/
theorem mem_remove_iff (hplain : element.Plain) (hin : item ∈ current) :
    item ∈ Listing.remove element current values ↔ ∀ value ∈ values, Value.same item value ≠ true := by
  rw [Listing.remove_plain hplain, List.mem_filter]
  simp [hin]

end Removal

/-- Equal values are of the same types. -/
theorem ValueType.holds_congr {a b : Value} (h : Value.same a b = true) (wanted : ValueType) :
    wanted.holds a = wanted.holds b := by
  cases a <;> cases b <;> simp [Value.same, Value.agrees] at h <;> cases wanted <;>
    simp [ValueType.holds, h]

theorem Choice.accepts_congr {a b : Value} (ha : a.KeysOnce) (h : Value.same a b = true)
    (choice : Choice) : choice.accepts a = choice.accepts b := by
  cases choice with
  | type wanted => exact ValueType.holds_congr h wanted
  | value expected => exact Value.same_congr_right ha h expected

/-- **Equal values are interchangeable.** -/
theorem Value.interchangeable_of_same {a b : Value} (ha : a.KeysOnce) (h : same a b = true) :
    a.Interchangeable b where
  listed rules field := by
    rw [Rules.checkListed_ok_iff, Rules.checkListed_ok_iff]
    simp only [Rules.Lists, same_congr_right ha h]
  accepted := Choice.accepts_congr ha h
  chosen rules field := by
    rw [Rules.checkChoices_ok_iff, Rules.checkChoices_ok_iff]
    simp only [Rules.Accepts, Choice.accepts_congr ha h]
  removed element hplain values current others hina hinb := by
    rw [mem_remove_iff hplain hina, mem_remove_iff hplain hinb]
    simp only [same_congr ha h]

/-- **Equality of values is an equivalence** that does not depend on the order of the fields of
objects at any depth, and equal values are allowed and removed together. -/
theorem same_equivalence {a b : Value} (ha : a.KeysOnce) (hb : b.KeysOnce) :
    Value.same a a = true ∧ Value.same a b = Value.same b a ∧
      (∀ c, Value.same a b = true → Value.same b c = true → Value.same a c = true) ∧
      (∀ a' b', Value.Reordered a a' → Value.Reordered b b' →
        Value.same a b = Value.same a' b') ∧
      (Value.same a b = true → a.Interchangeable b) := by
  refine ⟨ha.same_refl, Bool.eq_iff_iff.mpr ⟨ha.same_symm, hb.same_symm⟩,
    fun c => Value.same_trans, fun a' b' hreordered hreordered' => ?_,
    Value.interchangeable_of_same ha⟩
  calc Value.same a b = Value.same a' b := Value.same_congr ha (hreordered.same ha) b
    _ = Value.same a' b' := Value.same_congr_right hb (hreordered'.same hb) a'

/-- Names with a mark that is not at the top. -/
def someNames (mark : Object) : Value := .array [.string "a", .object mark]

/-- Two values that are the same up to the order of fields and the kind of one number. -/
def agedValues : Value × Value :=
  (.object [("age", .number (.int 1)), ("names", someNames [("x", .null), ("y", .bool true)])],
    .object [("names", someNames [("y", .bool true), ("x", .null)]),
      ("age", .number (.double (.ofInt 1)))])

theorem keysOnce_agedValues : agedValues.1.KeysOnce ∧ agedValues.2.KeysOnce := by
  simp [agedValues, someNames, Value.keysOnce_object_iff, Value.keysOnce_array_iff, Object.keys,
    Value.KeysOnce.null, Value.KeysOnce.bool, Value.KeysOnce.number, Value.KeysOnce.string]

/-- Values that differ in the kind of a number and in the order of fields are interchangeable, and
they stay equal if fields are exchanged. -/
theorem agedValues_interchangeable : agedValues.1.Interchangeable agedValues.2 ∧
    Value.same (.object [("names", someNames [("x", .null), ("y", .bool true)]),
      ("age", .number (.int 1))]) agedValues.2 = true := by
  obtain ⟨-, -, -, hreordered, hinterchangeable⟩ :=
    same_equivalence keysOnce_agedValues.1 keysOnce_agedValues.2
  have hsame : Value.same agedValues.1 agedValues.2 = true := by
    simp [agedValues, someNames, Value.same, Value.agrees, Value.itemsAgree, Value.fieldsAgree,
      Object.value?, Number.same_iff, Number.toFinite]
  have hexchanged := Value.reordered_of_perm keysOnce_agedValues.1.keys (List.Perm.swap _ _ _)
  refine ⟨hinterchangeable hsame, ?_⟩
  rw [← hreordered _ _ hexchanged (Value.Alike.refl (fun _ => rfl) _)]
  exact hsame

/-! ### Integers -/

/-- The number is an integer that passes a test. -/
def Number.IsInteger (test : Int → Prop) : Number → Prop
  | .int n => test n
  | .double _ => False

/-- **Integers that are rounded to the same double.** -/
def Number.Collide : Number → Number → Prop
  | .int m, .int n => Finite.roundedInt m = Finite.roundedInt n
  | _, _ => False

theorem Number.same_int_iff {m n : Int} :
    Number.same (.int m) (.int n) = true ↔ Finite.roundedInt m = Finite.roundedInt n := by
  have hunits : Number.same (.int m) (.int n) = true ↔
      (Finite.ofInt m).units = (Finite.ofInt n).units := Number.same_iff
  rw [hunits, Finite.units_ofInt, Finite.units_ofInt]
  generalize 1074 = unit
  have hpos : (2 : Int) ^ unit ≠ 0 := by positivity
  exact mul_left_inj' hpos

/-- **What equality says of a value among others**: which values it equals, which lists of allowed
values hold it, and which values remove it from a list. -/
structure Value.ComparedBy (alike : Value → Value → Prop) (others : Value → Prop) (a : Value) :
    Prop where
  same : ∀ b, others b → (Value.same a b = true ↔ alike a b)
  listed : ∀ (rules : Rules) field allowed, rules.listed = some allowed →
    (∀ value ∈ allowed, others value) →
    (rules.checkListed field a = .ok () ↔ ∃ value ∈ allowed, alike a value)
  removed : ∀ element : Element, element.Plain → ∀ values current,
    (∀ value ∈ values, others value) → a ∈ current →
    (a ∈ Listing.remove element current values ↔ ∀ value ∈ values, ¬ alike a value)

theorem Value.comparedBy_of_same {alike : Value → Value → Prop} {others : Value → Prop} {a : Value}
    (ha : a.KeysOnce) (hothers : ∀ b, others b → b.KeysOnce)
    (h : ∀ b, others b → (Value.same a b = true ↔ alike a b)) : a.ComparedBy alike others where
  same := h
  listed rules field allowed hallowed hvalues := by
    rw [Rules.checkListed_ok_iff]
    constructor
    · intro hlists
      obtain ⟨value, hin, hsame⟩ := hlists allowed hallowed
      have hvalue := hvalues value hin
      exact ⟨value, hin, (h value hvalue).mp ((hothers value hvalue).same_symm hsame)⟩
    · rintro ⟨value, hin, halike⟩ listed hlisted
      obtain rfl : listed = allowed := Option.some.inj (hlisted.symm.trans hallowed)
      exact ⟨value, hin, ha.same_symm ((h value (hvalues value hin)).mpr halike)⟩
  removed element hplain values current hvalues hin := by
    rw [mem_remove_iff hplain hin]
    exact forall₂_congr fun value hvalue => not_congr (h value (hvalues value hvalue))

theorem Value.comparedBy_of_integers {numbers : Number → Number → Prop} {left right : Int → Prop}
    {a : Value} (ha : a.KeysOnce) (hleft : a.Numbers (Number.IsInteger left))
    (h : ∀ m n, left m → right n →
      (Finite.roundedInt m = Finite.roundedInt n ↔ numbers (.int m) (.int n))) :
    a.ComparedBy (Alike numbers) fun b => b.KeysOnce ∧ b.Numbers (Number.IsInteger right) := by
  refine comparedBy_of_same ha (fun _ hb => hb.1) fun b hb => ?_
  refine ha.agrees_iff_alike.trans (alike_congr hleft hb.2 ?_)
  rintro (m | x) (n | y) hm hn
  · exact Number.same_int_iff.trans (h m n hm hn)
  · exact hn.elim
  · exact hm.elim
  · exact hm.elim

/-- **Integers are compared by the doubles that are nearest to them.** So among integers of at most
53 bits followed by zeros a value equals only itself up to the order of fields, and so does a value
with integers below the 53 bits among all integers. -/
theorem integers_compared {a : Value} (ha : a.KeysOnce)
    (hintegers : a.Numbers (Number.IsInteger fun _ => True)) :
    (a.ComparedBy (Value.Alike Number.Collide) fun b =>
      b.KeysOnce ∧ b.Numbers (Number.IsInteger fun _ => True)) ∧
    (a.Numbers (Number.IsInteger fun n => Finite.Exact n.natAbs) →
      a.ComparedBy Value.Reordered fun b =>
        b.KeysOnce ∧ b.Numbers (Number.IsInteger fun n => Finite.Exact n.natAbs)) ∧
    (a.Numbers (Number.IsInteger fun n => n.natAbs < 2 ^ 53) →
      a.ComparedBy Value.Reordered fun b =>
        b.KeysOnce ∧ b.Numbers (Number.IsInteger fun _ => True)) := by
  refine ⟨Value.comparedBy_of_integers ha hintegers fun m n _ _ => Iff.rfl,
    fun hexact => Value.comparedBy_of_integers ha hexact fun m n hm hn => ?_,
    fun hsmall => Value.comparedBy_of_integers ha hsmall fun m n hm _ => ?_⟩
  · rw [Finite.roundedInt_of_exact hm, Finite.roundedInt_of_exact hn, Number.int.injEq]
  · rw [Number.int.injEq]
    exact ⟨Finite.eq_of_roundedInt_eq hm, fun h => by rw [h]⟩

/-- The least integer of more than 53 bits and the next one are taken for the same: the one is
allowed where only the other is listed, and it is removed with the other. -/
theorem neighbours_collide :
    Value.same (.number (.int 9007199254740993)) (.number (.int 9007199254740992)) = true ∧
    ¬ Value.Reordered (.number (.int 9007199254740993)) (.number (.int 9007199254740992)) ∧
    ({ listed := some [.number (.int 9007199254740992)] } : Rules).checkListed "n"
      (.number (.int 9007199254740993)) = .ok () ∧
    Value.number (.int 9007199254740993) ∉ Listing.remove .any
      [.number (.int 9007199254740993)] [.number (.int 9007199254740992)] := by
  have hinteger : ∀ n : Int, (Value.number (.int n)).Numbers (Number.IsInteger fun _ => True) :=
    fun n => .number trivial
  have hcollide : Value.Alike Number.Collide (.number (.int 9007199254740993))
      (.number (.int 9007199254740992)) :=
    .number (show Finite.roundedInt _ = Finite.roundedInt _ by decide +kernel)
  have hlisted : ∀ value ∈ [Value.number (.int 9007199254740992)],
      value.KeysOnce ∧ value.Numbers (Number.IsInteger fun _ => True) := by
    rintro _ (_ | ⟨_, ⟨⟩⟩)
    exact ⟨.number, hinteger _⟩
  obtain ⟨hcompared, -, -⟩ := integers_compared .number (hinteger 9007199254740993)
  refine ⟨(hcompared.same _ ⟨.number, hinteger _⟩).mpr hcollide, ?_, ?_, ?_⟩
  · rintro (_ | _ | hequal)
    exact absurd hequal (by decide)
  · exact (hcompared.listed _ "n" _ rfl hlisted).mpr ⟨_, List.mem_singleton_self _, hcollide⟩
  · rw [hcompared.removed .any .any _ _ hlisted (List.mem_singleton_self _)]
    intro h
    exact h _ (List.mem_singleton_self _) hcollide

/-- Equality is not exact on the integers of 64 bits. -/
theorem integers_not_exact : ¬ ∀ m n : Int, Number.minInt ≤ m → m < Number.intBound →
    Number.minInt ≤ n → n < Number.intBound →
    (Value.same (.number (.int m)) (.number (.int n)) = true ↔
      Value.Reordered (.number (.int m)) (.number (.int n))) := by
  intro h
  have hsame : Value.same (.number (.int 9007199254740993)) (.number (.int 9007199254740992)) =
      true := Number.same_int_iff.mpr (by decide +kernel)
  have hexact := h 9007199254740993 9007199254740992
    (by decide) (by decide) (by decide) (by decide)
  rcases hexact.mp hsame with _ | _ | hequal
  exact absurd hequal (by decide)

end DocumentDb
