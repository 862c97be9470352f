import DocumentDb.Proofs.Numeric.Decimals
import DocumentDb.Proofs.Text.Margins
import DocumentDb.Proofs.Text.Padding
import DocumentDb.Query.Expression

/-!
# How literals are spelled

A literal of an expression is spelled as a text in quotes, as one of four symbols, or as a number.
The grammar of numbers (`NumberText`) says which double a text stands for: its digits and its
exponent make a quotient, and this is rounded once.

* `Literal.Spelled.ofChars`: every spelling is read as its literal.
-/

namespace DocumentDb

/-! ### The grammar of numbers -/

/-- A run of at least one digit. -/
structure DigitRun (run : List Char) : Prop where
  ne_nil : run ≠ []
  digits : ∀ c ∈ run, isDigit c = true

/-- The fraction of a number, and its digits. -/
inductive FractionText : List Char → List Char → Prop
  | none : FractionText [] []
  | digits {run : List Char} (hrun : DigitRun run) : FractionText ('.' :: run) run

/-- The sign of an exponent, and whether it makes the exponent negative. -/
inductive SignText : List Char → Bool → Prop
  | none : SignText [] false
  | plus : SignText ['+'] false
  | minus : SignText ['-'] true

/-- The exponent of a number, and the power of ten that it stands for. -/
inductive ExponentText : List Char → Int → Prop
  | none : ExponentText [] 0
  | power {mark : Char} {sign run : List Char} {negative : Bool} (hmark : mark = 'e' ∨ mark = 'E')
    (hsign : SignText sign negative) (hrun : DigitRun run) :
    ExponentText (mark :: (sign ++ run))
      (if negative then -(digitsValue run : Int) else digitsValue run)

/-- **A text is a number**: digits, with an optional minus sign, fraction and exponent. It stands
for the double nearest to the quotient that they make. -/
inductive NumberText : List Char → Double → Prop
  | mk {negative : Bool} {whole fraction digits exponent : List Char} {power : Int}
    (hwhole : DigitRun whole) (hfraction : FractionText fraction digits)
    (hexponent : ExponentText exponent power) :
    NumberText ((if negative then ['-'] else []) ++ (whole ++ (fraction ++ exponent)))
      (.ofRatio negative (digitsValue (whole ++ digits) * 10 ^ (power - digits.length).toNat)
        (10 ^ (digits.length - power).toNat))

section Runs
variable {run rest : List Char}

theorem DigitRun.exists_cons (h : DigitRun run) : ∃ c tail, run = c :: tail ∧ isDigit c = true := by
  obtain ⟨c, tail, rfl⟩ := List.exists_cons_of_ne_nil h.ne_nil
  exact ⟨c, tail, rfl, h.digits c List.mem_cons_self⟩

theorem DigitRun.digits? (h : DigitRun run) (hrest : ∀ c ∈ rest.head?, isDigit c = false) :
    Literal.digits? (run ++ rest) = some rest := by
  have hempty : run.isEmpty = false := by simpa using h.ne_nil
  rw [Literal.digits?, Text.takeWhile_run h.digits hrest, Text.dropWhile_run h.digits hrest, hempty]
  rfl

theorem DigitRun.splitSign (h : DigitRun run) (rest : List Char) :
    splitSign (run ++ rest) = (false, run ++ rest) := by
  obtain ⟨c, tail, rfl, hc⟩ := h.exists_cons
  rw [List.cons_append]
  unfold DocumentDb.splitSign
  split
  · next heq => cases heq; cases hc
  · next heq => cases heq; cases hc
  · rfl

theorem SignText.splitSign {sign : List Char} {negative : Bool} (h : SignText sign negative)
    (hrun : DigitRun run) : splitSign (sign ++ run) = (negative, run) := by
  cases h with
  | none => simpa using hrun.splitSign []
  | plus => rfl
  | minus => rfl

end Runs

/-! ### Numbers are read as their doubles -/

section Exponents
variable {exponent : List Char} {power : Int}

/-- An exponent is nothing, or a mark with what is read as the power. -/
theorem ExponentText.cases (h : ExponentText exponent power) : exponent = [] ∧ power = 0 ∨
    ∃ mark tail, exponent = mark :: tail ∧ (mark = 'e' ∨ mark = 'E') ∧
      readExponent? tail = some power ∧ Literal.digits? (splitSign tail).2 = some [] := by
  cases h with
  | none => exact .inl ⟨rfl, rfl⟩
  | @power mark sign run negative hmark hsign hrun =>
    refine .inr ⟨mark, sign ++ run, rfl, hmark, ?_, ?_⟩
    · have hempty : run.isEmpty = false := by simpa using hrun.ne_nil
      have hall : run.all isDigit = true := by simpa using hrun.digits
      rw [readExponent?, hsign.splitSign hrun]
      simp [hempty, hall]
    · have hdigits : Literal.digits? (run ++ []) = some [] := hrun.digits? (by rintro _ ⟨⟩)
      rw [List.append_nil] at hdigits
      rw [hsign.splitSign hrun, hdigits]

theorem ExponentText.head (h : ExponentText exponent power) :
    ∀ c ∈ exponent.head?, c = 'e' ∨ c = 'E' := by
  rintro c hc
  rcases h.cases with ⟨rfl, -⟩ | ⟨mark, tail, rfl, hmark, -⟩
  · cases hc
  · cases hc
    exact hmark

theorem ExponentText.isExponent (h : ExponentText exponent power) :
    Literal.isExponent exponent = true := by
  rcases h.cases with ⟨rfl, -⟩ | ⟨mark, tail, rfl, hmark, -, hdigits⟩
  · rfl
  · rw [Literal.isExponent, hdigits]
    simpa using hmark

theorem ExponentText.not_digit (h : ExponentText exponent power) :
    ∀ c ∈ exponent.head?, isDigit c = false := by
  intro c hc
  rcases h.head c hc with rfl | rfl <;> rfl

variable {fraction digits : List Char}

theorem FractionText.not_digit (hfraction : FractionText fraction digits)
    (hexponent : ExponentText exponent power) :
    ∀ c ∈ (fraction ++ exponent).head?, isDigit c = false := by
  cases hfraction with
  | none => exact hexponent.not_digit
  | digits =>
    intro c hc
    cases hc
    rfl

theorem FractionText.behindFraction? (hfraction : FractionText fraction digits)
    (hexponent : ExponentText exponent power) :
    Literal.behindFraction? (fraction ++ exponent) = some exponent := by
  cases hfraction with
  | none =>
    rw [List.nil_append]
    unfold Literal.behindFraction?
    split
    · next rest => rcases hexponent.head '.' rfl with h | h <;> cases h
    · rfl
  | digits hrun => exact hrun.digits? hexponent.not_digit

/-- The digits of a fraction, if there is one, and what follows them. -/
def splitFraction : List Char → List Char × List Char
  | '.' :: tail => (tail.takeWhile isDigit, tail.dropWhile isDigit)
  | tail => ([], tail)

/-- The power of ten that a text stands for. -/
def readPower? : List Char → Option Int
  | [] => some 0
  | c :: tail => if c = 'e' || c = 'E' then readExponent? tail else none

theorem readMagnitude?_eq (negative : Bool) (whole : List Char) {rest : List Char}
    (hwhole : DigitRun whole) (hrest : ∀ c ∈ rest.head?, isDigit c = false) :
    readMagnitude? negative (whole ++ rest) = (readPower? (splitFraction rest).2).map fun power =>
      .ofDecimal negative (digitsValue (whole ++ (splitFraction rest).1))
        (power - (splitFraction rest).1.length) := by
  have hempty : (whole.isEmpty && (splitFraction rest).1.isEmpty) = false := by
    simp [hwhole.ne_nil]
  have hunfolded (text : List Char) : readMagnitude? negative text =
      if (text.takeWhile isDigit).isEmpty && (splitFraction (text.dropWhile isDigit)).1.isEmpty then
        none
      else (readPower? (splitFraction (text.dropWhile isDigit)).2).map fun power =>
        .ofDecimal negative
          (digitsValue (text.takeWhile isDigit ++ (splitFraction (text.dropWhile isDigit)).1))
          (power - (splitFraction (text.dropWhile isDigit)).1.length) := rfl
  rw [hunfolded, Text.takeWhile_run hwhole.digits hrest, Text.dropWhile_run hwhole.digits hrest,
    hempty]
  rfl

theorem FractionText.splitFraction (hfraction : FractionText fraction digits)
    (hexponent : ExponentText exponent power) :
    splitFraction (fraction ++ exponent) = (digits, exponent) := by
  cases hfraction with
  | none =>
    rw [List.nil_append]
    unfold DocumentDb.splitFraction
    split
    · next rest => rcases hexponent.head '.' rfl with h | h <;> cases h
    · rfl
  | digits hrun =>
    rw [List.cons_append, DocumentDb.splitFraction,
      Text.takeWhile_run hrun.digits hexponent.not_digit,
      Text.dropWhile_run hrun.digits hexponent.not_digit]

theorem ExponentText.readPower? (h : ExponentText exponent power) :
    readPower? exponent = some power := by
  rcases h.cases with ⟨rfl, rfl⟩ | ⟨mark, tail, rfl, hmark, hread, -⟩
  · rfl
  · rw [← hread]
    exact if_pos (by simpa using hmark)

end Exponents

/-- No digit becomes a letter when it is put in small letters. -/
theorem toLower_of_isDigit {c : Char} (hc : isDigit c = true) : c.toLower = c := by
  have hrange := toNat_of_isDigit hc
  have hcapital : ¬ (c.val ≥ 'A'.val ∧ c.val ≤ 'Z'.val) := by
    rintro ⟨hle, -⟩
    have hle : 65 ≤ c.toNat := hle
    omega
  exact dif_neg hcapital

/-- **Digits behind an optional sign** are none of the words that stand for doubles. -/
theorem DigitRun.readDouble? {text whole rest : List Char} {negative : Bool}
    (hwhole : DigitRun whole) (hsign : DocumentDb.splitSign text = (negative, whole ++ rest)) :
    DocumentDb.readDouble? (String.ofList text) = readMagnitude? negative (whole ++ rest) := by
  have hword (word : String) (hletter : ∀ c ∈ word.toList.head?, isDigit c = false) :
      String.ofList ((whole ++ rest).map Char.toLower) ≠ word := by
    rintro rfl
    obtain ⟨c, tail, rfl, hc⟩ := hwhole.exists_cons
    have hfirst := hletter c (by simp [toLower_of_isDigit hc])
    rw [hc] at hfirst
    cases hfirst
  have hinf := hword "inf" (by simp [isDigit])
  have hinfinity := hword "infinity" (by simp [isDigit])
  have hnan := hword "nan" (by simp [isDigit])
  rw [DocumentDb.readDouble?, String.toList_ofList, hsign]
  simp only [hinf, hinfinity, hnan, decide_false, Bool.or_self, Bool.false_eq_true, ↓reduceIte]

namespace NumberText

variable {text : List Char} {x : Double}

/-- A number begins with a minus sign or a digit. -/
theorem head (h : NumberText text x) :
    ∃ c rest, text = c :: rest ∧ (c = '-' ∨ isDigit c = true) := by
  obtain ⟨hwhole, -, -⟩ := h
  next negative whole fraction digits exponent power =>
  cases negative with
  | true => exact ⟨'-', _, rfl, .inl rfl⟩
  | false =>
    obtain ⟨c, tail, rfl, hc⟩ := hwhole.exists_cons
    exact ⟨c, _, rfl, .inr hc⟩

theorem isNumber (h : NumberText text x) : Literal.isNumber text = true := by
  obtain ⟨hwhole, hfraction, hexponent⟩ := h
  next negative whole fraction digits exponent power =>
  have hbehind : (Literal.digits? (whole ++ (fraction ++ exponent))).bind Literal.behindFraction? =
      some exponent := by
    rw [hwhole.digits? (hfraction.not_digit hexponent), Option.bind_some,
      hfraction.behindFraction? hexponent]
  unfold Literal.isNumber
  split
  · next rest heq =>
    have hrest : rest = whole ++ (fraction ++ exponent) := by
      cases negative with
      | true => exact (List.cons.inj heq).2.symm
      | false =>
        obtain ⟨c, tail, rfl, hc⟩ := hwhole.exists_cons
        cases heq
        cases hc
    simp only [hrest, hbehind, hexponent.isExponent]
  · next hminus =>
    cases negative with
    | true => exact absurd rfl (hminus _)
    | false =>
      rw [if_neg Bool.false_ne_true, List.nil_append]
      simp only [hbehind, hexponent.isExponent]

theorem readDouble? (h : NumberText text x) :
    DocumentDb.readDouble? (String.ofList text) = some x := by
  obtain ⟨hwhole, hfraction, hexponent⟩ := h
  next negative whole fraction digits exponent power =>
  have hsign : splitSign ((if negative then ['-'] else []) ++ (whole ++ (fraction ++ exponent))) =
      (negative, whole ++ (fraction ++ exponent)) := by
    cases negative with
    | true => rfl
    | false => exact hwhole.splitSign _
  rw [hwhole.readDouble? hsign, readMagnitude?_eq negative whole hwhole
    (hfraction.not_digit hexponent), hfraction.splitFraction hexponent, hexponent.readPower?,
    Option.map_some, Double.ofDecimal_eq, neg_sub]

/-- There is no blank in a number. -/
theorem not_blank (h : NumberText text x) : ∀ c ∈ text, Text.isBlank c = false := by
  obtain ⟨hwhole, hfraction, hexponent⟩ := h
  next negative whole fraction digits exponent power =>
  have hdigits {run : List Char} (hrun : DigitRun run) : ∀ c ∈ run, Text.isBlank c = false :=
    fun c hc => isBlank_of_isDigit (hrun.digits c hc)
  simp only [List.forall_mem_append]
  refine ⟨?_, hdigits hwhole, ?_, ?_⟩
  · cases negative with
    | true => exact List.forall_mem_singleton.mpr rfl
    | false => exact List.forall_mem_nil _
  · cases hfraction with
    | none => exact List.forall_mem_nil _
    | digits hrun => exact List.forall_mem_cons.mpr ⟨by decide, hdigits hrun⟩
  · cases hexponent with
    | none => exact List.forall_mem_nil _
    | power hmark hsign hrun =>
      refine List.forall_mem_cons.mpr ⟨?_, List.forall_mem_append.mpr ⟨?_, hdigits hrun⟩⟩
      · rcases hmark with rfl | rfl <;> decide
      · cases hsign with
        | none => exact List.forall_mem_nil _
        | plus => exact List.forall_mem_singleton.mpr rfl
        | minus => exact List.forall_mem_singleton.mpr rfl

end NumberText

/-! ### Literals are read from their spellings -/

namespace Literal

/-- **How a literal is spelled**: a text in quotes, a symbol, or a number. -/
inductive Spelled : Literal → String → Prop
  | double {s : String} (hline : '\n' ∉ s.toList) : Spelled (.text s) ("\"" ++ s ++ "\"")
  | single {s : String} (hline : '\n' ∉ s.toList) : Spelled (.text s) ("'" ++ s ++ "'")
  | true : Spelled (.bool Bool.true) "$true"
  | false : Spelled (.bool Bool.false) "$false"
  | null : Spelled .null "$null"
  | undefined : Spelled .undefined "$undefined"
  | number {x : Double} {spelling : String} (hnumber : NumberText spelling.toList x) :
    Spelled (.number x) spelling

/-- Characters that can stand behind an operator as a literal. -/
structure Token (chars : List Char) : Prop where
  ne_nil : chars ≠ []
  trimmed : Text.Trimmed chars
  no_line : '\n' ∉ chars
  no_sign : ∀ c ∈ chars.head?, Operator.isSign c = false

section Reading
variable {chars : List Char}

/-- A literal without a dollar sign at its beginning is no symbol. -/
theorem ofChars_eq (h : chars.head? ≠ some '$') : ofChars chars = match unquoted? chars with
    | some inner => .text (String.ofList inner)
    | none =>
      if isNumber chars then
        match readDouble? (String.ofList chars) with
        | some x => .number x
        | none => .text (String.ofList chars)
      else .text (String.ofList chars) := by
  have hsymbol (symbol : String) (hhead : symbol.toList.head? = some '$') :
      String.ofList chars ≠ symbol := by
    rintro rfl
    rw [String.toList_ofList] at hhead
    exact h hhead
  unfold ofChars
  refine (if_neg (hsymbol "$true" rfl)).trans ?_
  refine (if_neg (hsymbol "$false" rfl)).trans ?_
  refine (if_neg (hsymbol "$null" rfl)).trans ?_
  exact if_neg (hsymbol "$undefined" rfl)

/-- **A text in quotes** is the text. -/
theorem ofChars_quotes {quote : Char} (hquote : quote = '"' ∨ quote = '\'') (inner : List Char) :
    ofChars (quote :: (inner ++ [quote])) = .text (String.ofList inner) := by
  have hquotes : unquoted? (quote :: (inner ++ [quote])) = some inner := by
    obtain ⟨c, rest, hcons⟩ := List.exists_cons_of_ne_nil
      (List.append_ne_nil_of_right_ne_nil inner (List.cons_ne_nil quote []))
    rw [hcons, unquoted?, ← hcons]
    simpa [or_iff_not_imp_left] using hquote
  rw [ofChars_eq (by rcases hquote with rfl | rfl <;> simp), hquotes]

/-- **A number without quotes** is its double. -/
theorem ofChars_number {x : Double} (h : NumberText chars x) : ofChars chars = .number x := by
  obtain ⟨c, rest, rfl, hc⟩ := h.head
  have hother : c ≠ '$' ∧ c ≠ '"' ∧ c ≠ '\'' := by
    refine ⟨?_, ?_, ?_⟩ <;> rintro rfl <;> simp [isDigit] at hc
  have hquotes : unquoted? (c :: rest) = none := by
    cases rest with
    | nil => rfl
    | cons => simp [unquoted?, hother]
  rw [ofChars_eq (by simpa using hother.1), hquotes]
  simp only [h.isNumber, h.readDouble?, ↓reduceIte]

theorem token_quoted {quote : Char} (hquote : quote = '"' ∨ quote = '\'') {inner : List Char}
    (hline : '\n' ∉ inner) : Token (quote :: (inner ++ [quote])) where
  ne_nil := List.cons_ne_nil _ _
  trimmed := by
    have hblank : Text.isBlank quote = Bool.false := by rcases hquote with rfl | rfl <;> decide
    refine ⟨fun c hc => ?_, fun c hc => ?_⟩
    · cases hc
      exact hblank
    · rw [← List.cons_append, List.getLast?_concat] at hc
      cases hc
      exact hblank
  no_line := by rcases hquote with rfl | rfl <;> simpa using hline
  no_sign := by
    intro c hc
    cases hc
    rcases hquote with rfl | rfl <;> decide

theorem token_number {x : Double} (h : NumberText chars x) : Token chars where
  ne_nil := by
    obtain ⟨c, rest, rfl, -⟩ := h.head
    exact List.cons_ne_nil c rest
  trimmed := ⟨fun c hc => h.not_blank c (List.mem_of_mem_head? hc),
    fun c hc => h.not_blank c (List.mem_of_mem_getLast? hc)⟩
  no_line hin := by cases h.not_blank _ hin
  no_sign := by
    obtain ⟨c, rest, rfl, hfirst⟩ := h.head
    intro other hother
    cases hother
    rcases hfirst with rfl | hdigit
    · decide
    · have hrange := toNat_of_isDigit hdigit
      have hne (sign : Char) (hsign : 57 < sign.toNat ∨ sign.toNat < 48) : c ≠ sign := by
        rintro rfl
        omega
      simp [Operator.isSign, hne '=' (by decide), hne '!' (by decide), hne '<' (by decide),
        hne '>' (by decide)]

end Reading

namespace Spelled

variable {literal : Literal} {spelling : String}

theorem toList_quoted (s : String) : ("\"" ++ s ++ "\"").toList = '"' :: (s.toList ++ ['"']) ∧
    ("'" ++ s ++ "'").toList = '\'' :: (s.toList ++ ['\'']) := by
  simp

theorem token (h : Spelled literal spelling) : Token spelling.toList := by
  cases h with
  | double hline => rw [(toList_quoted _).1]; exact token_quoted (.inl rfl) hline
  | single hline => rw [(toList_quoted _).2]; exact token_quoted (.inr rfl) hline
  | number hnumber => exact token_number hnumber
  | true | false | null | undefined =>
    exact ⟨by decide, ⟨by rintro c ⟨⟩; rfl, by rintro c ⟨⟩; rfl⟩, by decide, by rintro c ⟨⟩; rfl⟩

/-- **Every spelling is read as its literal.** -/
theorem ofChars (h : Spelled literal spelling) : ofChars spelling.toList = literal := by
  cases h with
  | double => rw [(toList_quoted _).1, ofChars_quotes (.inl rfl), String.ofList_toList]
  | single => rw [(toList_quoted _).2, ofChars_quotes (.inr rfl), String.ofList_toList]
  | number hnumber => exact ofChars_number hnumber
  | true | false | null | undefined => decide

end Spelled

end Literal

end DocumentDb
