import DocumentDb.Proofs.Document.Selection
import DocumentDb.Proofs.Numeric.Rounding
import DocumentDb.Proofs.Query.Spelling

/-!
# Digits as ids

An expression compares list items with a literal, and in a list of references the literal stands for
an id. In quotes it is a text and names this id. Digits without quotes are read as a double, and the
id is the text of its value: zeros in front are lost, and so are the bits that no double has.

* `Listing.digits_replace_iff`: digits without quotes name the id that they spell just if they are
  the text of a number that a double keeps.
-/

namespace DocumentDb

/-! ### Expressions about items -/

/-- An expression about items, with a literal that has no blanks around it. -/
theorem Matcher.parse_item {literal : String} (htrimmed : Text.Trimmed literal.toList)
    (hne : literal.toList ≠ []) (hline : '\n' ∉ literal.toList) :
    Matcher.parse ("$item === " ++ literal) = .ok (.expression
      ⟨Expression.itemKey, .strictEq, Literal.ofChars literal.toList⟩) := by
  have hchars : ("$item === " ++ literal).toList =
      "$item === ".toList ++ literal.toList := String.toList_append
  have hsign : ("$item === " ++ literal).toList.any Operator.isSign = true := by
    rw [hchars, List.any_append]
    rfl
  have htrim : Text.trimChars (' ' :: literal.toList) = literal.toList := htrimmed.trimChars
  have hsplit : Expression.split? ("$item === " ++ literal).toList =
      some ("$item".toList, "===".toList, literal.toList) := by
    have hbehind : Expression.split? ("$item === ".toList ++ literal.toList) =
        if (Text.trimChars (' ' :: literal.toList)).contains '\n' then none
        else some ("$item".toList, "===".toList, Text.trimChars (' ' :: literal.toList)) := rfl
    rw [hchars, hbehind, htrim, if_neg (by simpa using hline)]
  have hempty : literal.toList.isEmpty = false := by simpa using hne
  have hparse : Expression.parse ("$item === " ++ literal) =
      .ok ⟨Expression.itemKey, .strictEq, Literal.ofChars literal.toList⟩ := by
    rw [Expression.parse, hsplit]
    dsimp only
    rw [hempty]
    rfl
  rw [Matcher.parse, if_pos hsign, Matcher.ofExpression, hparse]
  rfl

/-! ### Digits -/

section Digits
variable {digits : List Char} (hdigits : ∀ c ∈ digits, isDigit c = true)
include hdigits

theorem trimmed_digits : Text.Trimmed digits where
  first c hc := isBlank_of_isDigit (hdigits c (List.mem_of_mem_head? hc))
  last c hc := isBlank_of_isDigit (hdigits c (List.mem_of_mem_getLast? hc))

/-- What is no digit is not among digits. -/
theorem notMem_digits {c : Char} (hc : isDigit c = false) : c ∉ digits := by
  intro hin
  rw [hdigits c hin] at hc
  cases hc

theorem numberText_digits (hne : digits ≠ []) :
    NumberText digits (Double.ofRatio false (digitsValue digits) 1) := by
  have hnumber : NumberText ((if false = true then ['-'] else []) ++ (digits ++ ([] ++ []))) _ :=
    .mk ⟨hne, hdigits⟩ .none .none
  simpa using hnumber

/-- **Digits without quotes** are a number, the double nearest to the one that they spell. -/
theorem Literal.ofChars_digits (hne : digits ≠ []) : Literal.ofChars digits =
    .number (Double.ofRatio false (digitsValue digits) 1) :=
  Literal.ofChars_number (numberText_digits hdigits hne)

omit hdigits in
theorem Literal.ofChars_quoted (digits : List Char) :
    Literal.ofChars ('"' :: (digits ++ ['"'])) = .text (String.ofList digits) :=
  Literal.ofChars_quotes (.inl rfl) digits

end Digits

namespace Listing

/-! ### The reference to an id -/

/-- **An update replaces the reference to an id**: the first one that a list has, and it fails if
there is none. -/
structure Replaces (matcher : Matcher) (kind : IdKind) (id : DocId) : Prop where
  found : ∀ path target before old after update, old.referenceId? = some id →
    (∀ item ∈ before, item.referenceId? ≠ some id) →
      Listing.update path (.reference target kind) matcher (before ++ old :: after) [update] =
        .ok (collapse Value.referenceId? (before ++ asReference target update :: after))
  missing : ∀ path target current update, (∀ item ∈ current, item.referenceId? ≠ some id) →
    Listing.update path (.reference target kind) matcher current [update] =
      .error (.notFound target id.label)

section Replacing
variable {e : Expression} {kind : IdKind} {id : DocId} (haddresses : e.path = Expression.itemKey)
  (hoperator : e.operator = .strictEq)
include haddresses hoperator

theorem update_references (path target : String) (current updates : List Value) :
    Listing.update path (.reference target kind) (.expression e) current updates =
      updateReferences path target kind e current updates := by
  have hchecked : Matcher.checkOperator e.operator = .ok () := by
    rw [hoperator]
    rfl
  rw [Listing.update, hchecked]
  simp [updateByExpression, Expression.addressesItem, haddresses, hoperator]

theorem replaces_of_literalId? (hid : literalId? kind e.literal = some id) :
    Replaces (.expression e) kind id where
  found path target before old after update hold hbefore := by
    have htest : ∀ item ∈ before, (item.referenceId? == some id) = false := by simpa using hbefore
    rw [update_references haddresses hoperator, updateReferences, hid]
    simp only [single, bind, Except.bind, pure, Except.pure]
    rw [if_pos (by simp [hold]), editFirst_append htest (by simpa using hold)]
  missing path target current update hmissing := by
    rw [update_references haddresses hoperator, updateReferences, hid]
    simp only [single, bind, Except.bind, pure, Except.pure]
    rw [if_neg (by simpa using hmissing)]

/-- **The literal stands for the id** whose reference is replaced. -/
theorem replaces_iff (hvalid : DocId.ofValue? id.toValue = some id) :
    Replaces (.expression e) kind id ↔ literalId? kind e.literal = some id := by
  refine ⟨fun h => ?_, replaces_of_literalId? haddresses hoperator⟩
  have hown : (reference "" id).referenceId? = some id := hvalid
  have hfound := h.found "" "" [] (reference "" id) [] .null hown
    fun _ hnone => absurd hnone List.not_mem_nil
  cases hid : literalId? kind e.literal with
  | none =>
    rw [update_references haddresses hoperator, updateReferences, hid] at hfound
    cases hfound
  | some other =>
    by_contra hne
    have hother := (replaces_of_literalId? haddresses hoperator hid).missing "" "" [reference "" id]
      .null fun item hin => by
        rw [List.mem_singleton.mp hin, hown]
        exact fun hsame => hne hsame.symm
    rw [List.nil_append, hother] at hfound
    cases hfound

end Replacing

/-! ### Digits as ids -/

/-- **The text of a number that a double keeps**: one of at most 53 bits followed by zeros, or the
largest number that an id can be, which larger doubles are cut to. -/
def KeptAsDouble (d : String) : Prop :=
  ∃ n, d = toString n ∧ (n = maxNumber ∨ n < maxNumber ∧ Finite.Exact n)

theorem digitsValue_toString (n : Nat) : digitsValue (toString n).toList = n := by
  have hdigits : toString n = String.ofList (Nat.toDigits 10 n) := Nat.toString_eq_ofList_toDigits
  rw [hdigits, String.toList_ofList, digitsValue_eq]
  exact Nat.ofDigitChars_ten_toDigits

theorem units_nonneg {x : Finite} (h : x.negative = false) : 0 ≤ x.units := by
  unfold Finite.units
  rw [h]
  exact Int.natCast_nonneg _

/-- The id that a finite number stands for. -/
theorem literalId?_finite {x : Finite} {id : DocId} :
    literalId? .uid (.number (.finite x)) = some id ↔
      (0 ≤ x.units ∧ x.isWhole = true) ∧ id = .text (toString (min x.wholePart maxNumber)) := by
  unfold literalId?
  dsimp only
  split_ifs with hwhole
  · have hparts : 0 ≤ x.units ∧ x.isWhole = true := by simpa using hwhole
    rw [Option.some_inj]
    exact ⟨fun h => ⟨hparts, h.symm⟩, fun h => h.2.symm⟩
  · refine ⟨nofun, fun h => absurd ?_ hwhole⟩
    simpa using h.1

/-- The largest number that an id can be is rounded up to a larger one. -/
theorem nearest_maxNumber : (Finite.nearest false maxNumber 1).isWhole = true ∧
    maxNumber ≤ (Finite.nearest false maxNumber 1).wholePart := by
  decide +kernel

/-- **Digits without quotes stand for the id that they spell** just if a double keeps them. -/
theorem literalId?_digits (d : String) : literalId? .uid (.number
    (Double.ofRatio false (digitsValue d.toList) 1)) = some (.text d) ↔ KeptAsDouble d := by
  have hmax : maxNumber < 2 ^ 64 := by
    unfold maxNumber wordBound
    omega
  have hnearest : ∀ n, 0 ≤ (Finite.nearest false n 1).units := fun n =>
    units_nonneg (Finite.negative_nearest false n)
  constructor
  · intro h
    generalize hn : digitsValue d.toList = n at h
    have hwhole := Finite.wholePart_nearest_iff false n
    unfold Double.ofRatio at h
    generalize Finite.nearest false n 1 = x at h hwhole
    dsimp only at h
    split_ifs at h
    · cases h
    · obtain ⟨⟨-, hown⟩, hid⟩ := literalId?_finite.mp h
      have hd : d = toString (min x.wholePart maxNumber) := DocId.text.inj hid
      have hvalue := digitsValue_toString (min x.wholePart maxNumber)
      rw [← hd, hn] at hvalue
      refine ⟨n, by rw [hd, ← hvalue], ?_⟩
      rcases Nat.lt_or_ge x.wholePart maxNumber with hlt | hge
      · rw [Nat.min_eq_left hlt.le] at hvalue
        exact Or.inr ⟨hvalue ▸ hlt, hwhole.mp ⟨hown, hvalue.symm⟩⟩
      · rw [Nat.min_eq_right hge] at hvalue
        exact Or.inl hvalue
  · rintro ⟨n, rfl, hlast | ⟨hbelow, hexact⟩⟩
    · obtain ⟨hwhole, hle⟩ := nearest_maxNumber
      rw [digitsValue_toString, hlast, Double.ofRatio_one false hmax]
      exact literalId?_finite.mpr ⟨⟨hnearest _, hwhole⟩, by rw [Nat.min_eq_right hle]⟩
    · obtain ⟨hwhole, hpart⟩ := (Finite.wholePart_nearest_iff false n).mpr hexact
      rw [digitsValue_toString, Double.ofRatio_one false (hbelow.trans hmax)]
      exact literalId?_finite.mpr
        ⟨⟨hnearest _, hwhole⟩, by rw [hpart, Nat.min_eq_left hbelow.le]⟩

/-- **Digits in an expression about references.** In quotes they name the id that they spell.
Without quotes they do so just if they are the text of a number that a double keeps, and then the
quotes make no difference. -/
theorem digits_replace_iff {d : String} (hdigits : ∀ c ∈ d.toList, isDigit c = true) (hne : d ≠ "") :
    ∃ plain quoted, Matcher.parse ("$item === " ++ d) = .ok plain ∧
      Matcher.parse ("$item === " ++ ("\"" ++ d ++ "\"")) = .ok quoted ∧
      Replaces quoted .uid (.text d) ∧ (Replaces plain .uid (.text d) ↔ KeptAsDouble d) ∧
      (KeptAsDouble d → ∀ path target current updates,
        Listing.update path (.reference target .uid) plain current updates =
          Listing.update path (.reference target .uid) quoted current updates) := by
  have hchars : d.toList ≠ [] := by simpa using hne
  have hlength : 0 < d.length := by
    rw [← String.length_toList]
    exact List.length_pos_of_ne_nil hchars
  -- both texts are read as expressions about items
  have hplain := Matcher.parse_item (trimmed_digits hdigits) hchars
    (notMem_digits hdigits (by decide))
  rw [Literal.ofChars_digits hdigits hchars] at hplain
  have hquotes : ("\"" ++ d ++ "\"").toList = '"' :: (d.toList ++ ['"']) := by simp
  have htrimmed : Text.Trimmed ("\"" ++ d ++ "\"").toList := by
    rw [hquotes]
    refine ⟨fun c hc => ?_, fun c hc => ?_⟩
    · cases hc
      rfl
    · rw [← List.cons_append, List.getLast?_concat] at hc
      cases hc
      rfl
  have hquoted := Matcher.parse_item htrimmed (by simp [hquotes])
    (by simp [hquotes, notMem_digits hdigits (c := '\n') (by decide)])
  rw [hquotes, Literal.ofChars_quoted, String.ofList_toList] at hquoted
  -- the ids that the two literals stand for decide all the rest
  have hid : literalId? .uid (.text d) = some (.text d) := by simp [literalId?, hne]
  have hvalid : DocId.ofValue? (DocId.text d).toValue = some (.text d) :=
    DocId.ofValue?_toValue_text hlength
  refine ⟨_, _, hplain, hquoted, replaces_of_literalId? rfl rfl hid,
    (replaces_iff rfl rfl hvalid).trans (literalId?_digits d),
    fun hkept path target current updates => ?_⟩
  rw [update_references rfl rfl, update_references rfl rfl, updateReferences, updateReferences,
    (literalId?_digits d).mpr hkept, hid]

/-- Four digits without zeros in front name the id that they spell, in quotes or without. -/
theorem fourDigits_replace : ∃ plain quoted,
    Matcher.parse ("$item === " ++ "1234") = .ok plain ∧
      Matcher.parse ("$item === " ++ ("\"" ++ "1234" ++ "\"")) = .ok quoted ∧
      Replaces quoted .uid (.text "1234") ∧ Replaces plain .uid (.text "1234") ∧
      ∀ path target current updates,
        Listing.update path (.reference target .uid) plain current updates =
          Listing.update path (.reference target .uid) quoted current updates := by
  have hexact : Finite.Exact 1234 := ⟨1234, 0, by omega, by omega⟩
  have hkept : KeptAsDouble "1234" := ⟨1234, by decide, Or.inr ⟨by decide, hexact⟩⟩
  obtain ⟨plain, quoted, hplain, hquoted, hreplaces, hiff, hsame⟩ :=
    digits_replace_iff (d := "1234") (by simp [isDigit]) (by decide)
  exact ⟨plain, quoted, hplain, hquoted, hreplaces, hiff.mpr hkept, hsame hkept⟩

/-- The reference to `0012` is not found by these digits without quotes. -/
theorem leadingZeros_lost : ∃ plain, Matcher.parse ("$item === " ++ "0012") = .ok plain ∧
    Listing.update "badges" (.reference "badges" .uid) plain [reference "badges" (.text "0012")]
      [.string "zzzz"] = .error (.notFound "badges" "12") ∧
    ¬ Replaces plain .uid (.text "0012") := by
  have hdigits : ∀ c ∈ "0012".toList, isDigit c = true := by simp [isDigit]
  have hnumber := Literal.ofChars_digits hdigits (by decide)
  have hplain : Matcher.parse ("$item === " ++ "0012") = _ :=
    Matcher.parse_item (trimmed_digits hdigits) (by decide) (notMem_digits hdigits (by decide))
  rw [hnumber] at hplain
  have hid : literalId? .uid (.number (Double.ofRatio false (digitsValue "0012".toList) 1)) =
      some (.text "12") := by
    decide +kernel
  have hother : Replaces (.expression ⟨Expression.itemKey, .strictEq,
      .number (Double.ofRatio false (digitsValue "0012".toList) 1)⟩) .uid (.text "12") :=
    replaces_of_literalId? rfl rfl hid
  have hlost := hother.missing "badges" "badges" [reference "badges" (.text "0012")]
    (.string "zzzz") (by decide)
  refine ⟨_, hplain, hlost, fun h => ?_⟩
  have hfound := h.found "badges" "badges" [] (reference "badges" (.text "0012")) []
    (.string "zzzz") rfl fun _ hnone => absurd hnone List.not_mem_nil
  rw [List.nil_append, hlost] at hfound
  cases hfound

end Listing

end DocumentDb
