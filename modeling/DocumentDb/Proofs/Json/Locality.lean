import DocumentDb.Json.Reader
import Mathlib.Tactic.SplitIfs

/-!
# What readers of JSON take does not depend on what follows

A reader that succeeds takes the beginning of a text and leaves the rest. With another rest behind
the same beginning it takes the same: a number if the other rest begins with the same character,
since it ends where no more of it follows, and any other value in any case.
-/

namespace DocumentDb.Json

/-- **What a reader takes** does not depend on what follows, apart from the next character. -/
def Local {α : Type} (reader : Reader α) : Prop :=
  ∀ text a rest, reader text = some (a, rest) → ∃ read, text = read ++ rest ∧
    ∀ other : List Char, other.head? = rest.head? → reader (read ++ other) = some (a, other)

theorem head?_append_congr {rest other : List Char} (h : other.head? = rest.head?)
    (read : List Char) : (read ++ other).head? = (read ++ rest).head? := by
  cases read with
  | nil => exact h
  | cons c read => rfl

theorem head?_append_of_ne_nil {read : List Char} (h : read ≠ []) (rest other : List Char) :
    (read ++ other).head? = (read ++ rest).head? := by
  cases read with
  | nil => exact absurd rfl h
  | cons c read => rfl

theorem Local.bind {α β : Type} {first : Reader α} {next : α → Reader β} (hfirst : Local first)
    (hnext : ∀ a, Local (next a)) :
    Local fun text => (first text).bind fun (a, rest) => next a rest := by
  intro text b rest h
  obtain ⟨⟨a, behind⟩, ha, hb⟩ := Option.bind_eq_some_iff.mp h
  obtain ⟨read, rfl, hread⟩ := hfirst text a behind ha
  obtain ⟨more, rfl, hmore⟩ := hnext a behind b rest hb
  refine ⟨read ++ more, (List.append_assoc ..).symm, fun other hother => ?_⟩
  have hhead := hread (more ++ other) (head?_append_congr hother more)
  rw [List.append_assoc]
  dsimp only
  rw [hhead]
  exact hmore other hother

/-! ### Numbers -/

section Runs

theorem takeWhile_append {p : Char → Bool} {text other : List Char}
    (h : other.head? = (text.dropWhile p).head?) :
    (text.takeWhile p ++ other).takeWhile p = text.takeWhile p ∧
      (text.takeWhile p ++ other).dropWhile p = other := by
  induction text with
  | nil =>
    rw [List.head?_eq_none_iff.mp h]
    exact ⟨rfl, rfl⟩
  | cons c rest ih =>
    by_cases hc : p c = true
    · rw [List.dropWhile_cons_of_pos hc] at h
      simpa [hc] using ih h
    · rw [List.dropWhile_cons_of_neg hc] at h
      obtain ⟨tail, rfl⟩ := List.head?_eq_some_iff.mp h
      simp [hc]

theorem splitSign_local (text : List Char) : ∃ sign, text = sign ++ (splitSign text).2 ∧
    ∀ other : List Char, other.head? = (splitSign text).2.head? →
      splitSign (sign ++ other) = ((splitSign text).1, other) := by
  unfold splitSign
  split
  · next rest => exact ⟨['-'], rfl, fun other _ => rfl⟩
  · next rest => exact ⟨['+'], rfl, fun other _ => rfl⟩
  · next hminus hplus =>
    refine ⟨[], rfl, fun other hother => ?_⟩
    rw [List.nil_append]
    split
    · next rest =>
      obtain ⟨tail, rfl⟩ := List.head?_eq_some_iff.mp hother.symm
      exact absurd rfl (hminus tail)
    · next rest =>
      obtain ⟨tail, rfl⟩ := List.head?_eq_some_iff.mp hother.symm
      exact absurd rfl (hplus tail)
    · rfl

theorem takeDigits_local {start n : Nat} {text rest : List Char}
    (h : takeDigits start text = (n, rest)) : ∃ read, text = read ++ rest ∧
      ∀ other : List Char, other.head? = rest.head? → takeDigits start (read ++ other) =
        (n, other) := by
  induction text generalizing start with
  | nil =>
    cases h
    refine ⟨[], rfl, fun other hother => ?_⟩
    rw [List.head?_eq_none_iff.mp hother]
    rfl
  | cons c tail ih =>
    rw [takeDigits] at h
    split_ifs at h with hc
    · obtain ⟨read, rfl, hread⟩ := ih h
      refine ⟨c :: read, rfl, fun other hother => ?_⟩
      rw [List.cons_append, takeDigits, if_pos hc, hread other hother]
    · cases h
      refine ⟨[], rfl, fun other hother => ?_⟩
      obtain ⟨tail, rfl⟩ := List.head?_eq_some_iff.mp hother
      rw [List.nil_append, takeDigits, if_neg hc]

end Runs

section Numbers
variable {negative : Bool} {digits : Nat} {exponent : Int}

theorem map_local {α β : Type} {result : Option α} {f : α → β} :
    ∀ {text rest : List Char} {b : β}, (result.map fun a => (f a, text)) = some (b, rest) →
      rest = text ∧ ∀ other : List Char, (result.map fun a => (f a, other)) = some (b, other) := by
  intro text rest b h
  obtain ⟨a, rfl, heq⟩ := Option.map_eq_some_iff.mp h
  cases heq
  exact ⟨rfl, fun _ => rfl⟩

theorem readExponentPart_local : Local (readExponentPart negative digits exponent) := by
  intro text n rest h
  cases text with
  | nil =>
    obtain ⟨rfl, hother⟩ := map_local h
    refine ⟨[], rfl, fun other hhead => ?_⟩
    rw [List.head?_eq_none_iff.mp hhead]
    exact hother []
  | cons c tail =>
    rw [readExponentPart] at h
    split_ifs at h with he
    · obtain ⟨sign, htail, hsign⟩ := splitSign_local tail
      rcases hsplit : splitSign tail with ⟨minus, behind⟩
      rw [hsplit] at h htail hsign
      have hrest : rest = behind.dropWhile isDigit := by
        dsimp only at h
        split_ifs at h
        · cases h; rfl
        · exact (map_local h).1
        · exact (map_local h).1
      subst hrest
      refine ⟨c :: (sign ++ behind.takeWhile isDigit), ?_, fun other hhead => ?_⟩
      · rw [List.cons_append, List.append_assoc, List.takeWhile_append_dropWhile, ← htail]
      · have hrun := takeWhile_append hhead
        have hbehind : (behind.takeWhile isDigit ++ other).head? = behind.head? := by
          rw [head?_append_congr hhead, List.takeWhile_append_dropWhile]
        rw [List.cons_append, List.append_assoc, readExponentPart, if_pos he, hsign _ hbehind]
        dsimp only at h ⊢
        rw [hrun.1, hrun.2]
        split_ifs at h ⊢
        · cases h; rfl
        · exact (map_local h).2 other
        · exact (map_local h).2 other
    · obtain ⟨rfl, hother⟩ := map_local h
      refine ⟨[], rfl, fun other hhead => ?_⟩
      obtain ⟨tail, rfl⟩ := List.head?_eq_some_iff.mp hhead
      rw [List.nil_append, readExponentPart, if_neg he]
      exact hother _

theorem readFraction_of_nil {all : Nat} {taken : List Char}
    (h : takeDigits digits taken = (all, [])) :
    readFraction negative digits exponent taken =
      if taken.length = 0 then none
      else readExponentPart negative all (exponent - taken.length) [] := by
  rw [readFraction, h]
  rfl

theorem readFraction_of_cons {all : Nat} {taken more : List Char} {c : Char}
    (h : takeDigits digits (taken ++ c :: more) = (all, c :: more)) :
    readFraction negative digits exponent (taken ++ c :: more) =
      if isDigit c then
        readExponentPart negative all (exponent - taken.length) ((c :: more).dropWhile isDigit)
      else if taken.length = 0 then none
      else readExponentPart negative all (exponent - taken.length) (c :: more) := by
  rw [readFraction, h]
  dsimp only
  rw [List.length_append, Nat.add_sub_cancel]

theorem readFraction_local : Local (readFraction negative digits exponent) := by
  intro text n rest h
  rcases hdigits : takeDigits digits text with ⟨all, behind⟩
  obtain ⟨taken, rfl, htaken⟩ := takeDigits_local hdigits
  cases behind with
  | nil =>
    have hnil := htaken [] rfl
    rw [List.append_nil] at hnil
    rw [List.append_nil, readFraction_of_nil hnil] at h
    split_ifs at h with hnone
    obtain ⟨read, hsame, hlocal⟩ := readExponentPart_local _ _ _ h
    obtain ⟨rfl, rfl⟩ := List.append_eq_nil_iff.mp hsame.symm
    refine ⟨taken, rfl, fun other hhead => ?_⟩
    rw [List.head?_eq_none_iff.mp hhead, List.append_nil, readFraction_of_nil hnil, if_neg hnone, h]
  | cons c tail =>
    have hcons : ∀ more, takeDigits digits (taken ++ c :: more) = (all, c :: more) := fun _ =>
      htaken _ rfl
    rw [readFraction_of_cons (hcons _)] at h
    by_cases hc : isDigit c = true
    · rw [if_pos hc] at h
      obtain ⟨read, hsame, hlocal⟩ := readExponentPart_local _ _ _ h
      have hrun := List.takeWhile_append_dropWhile (p := isDigit) (l := c :: tail)
      refine ⟨taken ++ ((c :: tail).takeWhile isDigit ++ read), ?_, fun other hhead => ?_⟩
      · rw [List.append_assoc, List.append_assoc, ← hsame, hrun]
      · have hread : (read ++ other).head? = ((c :: tail).dropWhile isDigit).head? := by
          rw [hsame, head?_append_congr hhead]
        have hnext := (takeWhile_append hread).2
        rw [List.append_assoc, List.append_assoc]
        rw [List.takeWhile_cons_of_pos hc, List.cons_append] at hnext ⊢
        rw [readFraction_of_cons (hcons _), if_pos hc, hnext]
        exact hlocal other hhead
    · rw [if_neg hc] at h
      split_ifs at h with hnone
      obtain ⟨read, hsame, hlocal⟩ := readExponentPart_local _ _ _ h
      refine ⟨taken ++ read, by rw [List.append_assoc, hsame], fun other hhead => ?_⟩
      have hnext : (read ++ other).head? = (c :: tail).head? := by
        rw [hsame, head?_append_congr hhead]
      obtain ⟨more, hmore⟩ := List.head?_eq_some_iff.mp hnext
      rw [List.append_assoc, hmore, readFraction_of_cons (hcons _), if_neg hc, if_neg hnone,
        ← hmore]
      exact hlocal other hhead

/-- The whole part of a number that begins a text, as far as its digits fit. -/
def wholePart : Reader Nat
  | '0' :: rest => if (rest.head?.map isDigit).getD false then none else some (0, rest)
  | c :: rest => if isDigit c then some (takeDigits (digitValue c) rest) else none
  | [] => none

/-- The number with a whole part, from what follows a run of digits that do not fit. -/
def behindRun (negative : Bool) (digits : Nat) (passed : List Char) : Reader Number
  | '.' :: fraction => readFraction negative digits passed.length fraction
  | c :: tail =>
    if c = 'e' || c = 'E' || !passed.isEmpty then
      readExponentPart negative digits passed.length (c :: tail)
    else some (readMagnitude.integer negative digits, c :: tail)
  | [] =>
    if passed.isEmpty then some (readMagnitude.integer negative digits, [])
    else readExponentPart negative digits passed.length []

/-- The number with a whole part, from what follows. -/
def behindWhole (negative : Bool) (digits : Nat) : Reader Number := fun rest =>
  behindRun negative digits (rest.takeWhile isDigit) (rest.dropWhile isDigit)

theorem readMagnitude_eq : readMagnitude negative =
    fun text => (wholePart text).bind fun (digits, rest) => behindWhole negative digits rest := by
  funext text
  unfold readMagnitude behindWhole behindRun
  dsimp only
  congr 1
  funext ⟨digits, rest⟩
  dsimp only
  cases rest.dropWhile isDigit with
  | nil => rfl
  | cons c tail =>
    by_cases hpoint : c = '.'
    · subst hpoint
      rfl
    · simp

theorem wholePart_local : Local wholePart := by
  intro text n rest h
  unfold wholePart at h
  split at h
  · next tail =>
    split_ifs at h with hdigit
    cases h
    refine ⟨['0'], rfl, fun other hother => ?_⟩
    have hnext : ¬ ((other.head?.map isDigit).getD false) = true := by rwa [hother]
    exact if_neg hnext
  · next c tail hzero =>
    split_ifs at h with hdigit
    cases hdigits : takeDigits (digitValue c) tail with
    | mk all behind =>
      rw [hdigits] at h
      cases h
      obtain ⟨read, rfl, hread⟩ := takeDigits_local hdigits
      refine ⟨c :: read, rfl, fun other hother => ?_⟩
      rw [List.cons_append]
      unfold wholePart
      split
      · next heq => cases heq; exact (hzero rfl).elim
      · next heq =>
        cases heq
        rw [if_pos hdigit, hread other hother]
      · next heq => cases heq
  · cases h

theorem behindRun_local {passed : List Char} : Local (behindRun negative digits passed) := by
  intro text n rest h
  unfold behindRun at h
  split at h
  · next fraction =>
    obtain ⟨read, rfl, hread⟩ := readFraction_local _ _ _ h
    exact ⟨'.' :: read, rfl, hread⟩
  · next c tail hpoint =>
    have hother : ∀ more, behindRun negative digits passed (c :: more) =
        if c = 'e' || c = 'E' || !passed.isEmpty then
          readExponentPart negative digits passed.length (c :: more)
        else some (readMagnitude.integer negative digits, c :: more) := by
      intro more
      rw [behindRun]
      exact fun heq => hpoint heq
    split_ifs at h with hexponent
    · obtain ⟨read, hsame, hread⟩ := readExponentPart_local _ _ _ h
      refine ⟨read, hsame, fun other hhead => ?_⟩
      have hnext : (read ++ other).head? = (c :: tail).head? := by
        rw [hsame, head?_append_congr hhead]
      obtain ⟨more, hmore⟩ := List.head?_eq_some_iff.mp hnext
      rw [hmore, hother, if_pos hexponent, ← hmore]
      exact hread other hhead
    · cases h
      refine ⟨[], rfl, fun other hhead => ?_⟩
      obtain ⟨more, rfl⟩ := List.head?_eq_some_iff.mp hhead
      rw [List.nil_append, hother, if_neg hexponent]
  · split_ifs at h with hempty
    · cases h
      refine ⟨[], rfl, fun other hhead => ?_⟩
      rw [List.head?_eq_none_iff.mp hhead, List.nil_append, behindRun, if_pos hempty]
    · obtain ⟨read, hsame, hread⟩ := readExponentPart_local _ _ _ h
      obtain ⟨rfl, rfl⟩ := List.append_eq_nil_iff.mp hsame.symm
      refine ⟨[], rfl, fun other hhead => ?_⟩
      rw [List.head?_eq_none_iff.mp hhead, List.nil_append, behindRun, if_neg hempty, h]

theorem behindWhole_local : Local (behindWhole negative digits) := by
  intro text n rest h
  obtain ⟨read, hsame, hread⟩ := behindRun_local _ _ _ h
  refine ⟨text.takeWhile isDigit ++ read, ?_, fun other hother => ?_⟩
  · rw [List.append_assoc, ← hsame, List.takeWhile_append_dropWhile]
  · have hnext : (read ++ other).head? = (text.dropWhile isDigit).head? := by
      rw [hsame, head?_append_congr hother]
    obtain ⟨htaken, hleft⟩ := takeWhile_append hnext
    rw [List.append_assoc, behindWhole, htaken, hleft]
    exact hread other hother

theorem readMagnitude_local : Local (readMagnitude negative) := by
  rw [readMagnitude_eq]
  exact wholePart_local.bind fun _ => behindWhole_local

theorem readNumber_local : Local readNumber := by
  intro text n rest h
  unfold readNumber at h
  split at h
  · next tail =>
    obtain ⟨read, rfl, hread⟩ := readMagnitude_local _ _ _ h
    exact ⟨'-' :: read, rfl, hread⟩
  · next hminus =>
    obtain ⟨read, rfl, hread⟩ := readMagnitude_local _ _ _ h
    refine ⟨read, rfl, fun other hother => ?_⟩
    unfold readNumber
    split
    · next tail heq =>
      have hhead := head?_append_congr hother read
      rw [heq] at hhead
      obtain ⟨tail, htail⟩ := List.head?_eq_some_iff.mp hhead.symm
      exact absurd htail (hminus tail)
    · exact hread other hother

end Numbers

/-! ### Strings and words -/

/-- **A reader whose part ends by itself**: what it takes does not depend on what follows. -/
def Closed {α : Type} (reader : Reader α) : Prop :=
  ∀ text a rest, reader text = some (a, rest) → ∃ read, text = read ++ rest ∧
    ∀ other : List Char, reader (read ++ other) = some (a, other)

section Strings

theorem readHex_closed : Closed readHex := by
  intro text n rest h
  unfold readHex at h
  split at h
  · next a b c d tail =>
    obtain ⟨x, hx, h⟩ := Option.bind_eq_some_iff.mp h
    obtain ⟨y, hy, h⟩ := Option.bind_eq_some_iff.mp h
    obtain ⟨z, hz, h⟩ := Option.bind_eq_some_iff.mp h
    obtain ⟨w, hw, h⟩ := Option.bind_eq_some_iff.mp h
    cases h
    refine ⟨[a, b, c, d], rfl, fun other => ?_⟩
    simp [readHex, hx, hy, hz, hw]
  · cases h

theorem readCode_closed : Closed readCode := by
  intro text c rest h
  unfold readCode at h
  obtain ⟨⟨code, behind⟩, hcode, hbehind⟩ := Option.bind_eq_some_iff.mp h
  obtain ⟨read, rfl, hread⟩ := readHex_closed _ _ _ hcode
  clear h hcode
  dsimp only at hbehind
  split_ifs at hbehind with hlow hhigh
  · split at hbehind
    · next tail =>
      obtain ⟨⟨low, last⟩, hlow', hlast⟩ := Option.bind_eq_some_iff.mp hbehind
      obtain ⟨more, rfl, hmore⟩ := readHex_closed _ _ _ hlow'
      clear hbehind hlow'
      dsimp only at hlast
      split_ifs at hlast with hrange
      obtain ⟨rfl, rfl⟩ := Prod.mk.inj (Option.some.inj hlast)
      refine ⟨read ++ '\\' :: 'u' :: more, by simp, fun other => ?_⟩
      simp only [readCode, List.append_assoc, List.cons_append, hread, Option.bind_eq_bind,
        Option.bind_some]
      rw [if_neg hlow, if_pos hhigh]
      simp only [hmore, Option.bind_some]
      rw [if_pos hrange]
      rfl
    · cases hbehind
  · cases hbehind
    refine ⟨read, rfl, fun other => ?_⟩
    simp only [readCode, hread, Option.bind_eq_bind, Option.bind_some]
    rw [if_neg hlow, if_neg hhigh]
    rfl

/-- A string is read with as much fuel as it has characters. -/
theorem readString_closed {fuel : Nat} {done text rest : List Char} {s : String}
    (h : readString fuel done text = some (s, rest)) : ∃ read, text = read ++ rest ∧
      ∀ (more : Nat) (other : List Char), read.length ≤ more →
        readString more done (read ++ other) = some (s, other) := by
  induction fuel generalizing done text with
  | zero => cases h
  | succ fuel ih =>
    unfold readString at h
    split at h
    · cases h
    · next tail =>
      cases h
      refine ⟨['"'], rfl, fun more other hmore => ?_⟩
      obtain ⟨k, rfl⟩ := Nat.exists_eq_add_of_le' hmore
      rfl
    · next tail =>
      obtain ⟨⟨c, behind⟩, hcode, hbehind⟩ := Option.bind_eq_some_iff.mp h
      obtain ⟨first, rfl, hfirst⟩ := readCode_closed _ _ _ hcode
      obtain ⟨last, rfl, hlast⟩ := ih hbehind
      refine ⟨'\\' :: 'u' :: (first ++ last), by simp, fun more other hmore => ?_⟩
      simp only [List.length_cons, List.length_append] at hmore
      obtain ⟨k, rfl⟩ : ∃ k, more = k + 1 := ⟨more - 1, by omega⟩
      simp only [List.cons_append, List.append_assoc, readString, hfirst, Option.bind_eq_bind,
        Option.bind_some]
      exact hlast k other (by omega)
    · next c tail hcode =>
      obtain ⟨escape, hescape, hbehind⟩ := Option.bind_eq_some_iff.mp h
      obtain ⟨last, rfl, hlast⟩ := ih hbehind
      refine ⟨'\\' :: c :: last, by simp, fun more other hmore => ?_⟩
      simp only [List.length_cons] at hmore
      obtain ⟨k, rfl⟩ : ∃ k, more = k + 1 := ⟨more - 1, by omega⟩
      rw [List.cons_append, List.cons_append, readString]
      · simp only [hescape, Option.bind_eq_bind, Option.bind_some]
        exact hlast k other (by omega)
      · exact hcode
    · next c tail hquote hcode hescape =>
      split_ifs at h with hcontrol
      have hplain : c ≠ '\\' := by
        rintro rfl
        cases tail with
        | nil => cases fuel <;> cases h
        | cons next tail => exact hescape next tail rfl rfl
      obtain ⟨last, rfl, hlast⟩ := ih h
      refine ⟨c :: last, rfl, fun more other hmore => ?_⟩
      simp only [List.length_cons] at hmore
      obtain ⟨k, rfl⟩ : ∃ k, more = k + 1 := ⟨more - 1, by omega⟩
      rw [List.cons_append, readString, if_neg hcontrol]
      · exact hlast k other (by omega)
      · exact hquote
      · exact fun _ heq _ => hplain heq
      · exact fun _ _ heq _ => hplain heq

theorem readWord_closed {word : List Char} {value : Value} : Closed (readWord word value) := by
  intro text v rest h
  unfold readWord at h
  split_ifs at h with hword
  cases h
  obtain ⟨tail, rfl⟩ := List.isPrefixOf_iff_prefix.mp hword
  refine ⟨word, by simp, fun other => ?_⟩
  simp [readWord]

end Strings

/-! ### Values -/

section Values

/-- A token behind white space is read behind the same white space with any text after it. -/
theorem exists_spaces {c : Char} {text tail : List Char} (h : skipSpace text = c :: tail) :
    ∃ spaces, text = spaces ++ c :: tail ∧
      ∀ other : List Char, skipSpace (spaces ++ c :: other) = c :: other := by
  refine ⟨text.takeWhile isSpace, ?_, fun other => ?_⟩
  · rw [← h]
    exact List.takeWhile_append_dropWhile.symm
  · exact (takeWhile_append (by rw [show text.dropWhile isSpace = c :: tail from h]; rfl)).2

/-- A value read with some fuel is read with more fuel and anything behind it. Only the end of a
number depends on the next character. -/
def LocalValue (fuel : Nat) : Prop :=
  ∀ depth text value rest, readValue fuel depth text = some (value, rest) →
    ∃ read, text = read ++ rest ∧ ∀ (more : Nat) (other : List Char), fuel ≤ more →
      ((∀ n, value ≠ .number n) ∨ other.head? = rest.head?) →
      readValue more depth (read ++ other) = some (value, other)

/-- Items that are still to come are read with more fuel and anything behind the array. -/
def LocalItems (fuel : Nat) : Prop :=
  ∀ depth done text value rest, readItems fuel depth done text = some (value, rest) →
    ∃ read, read ≠ [] ∧ text = read ++ rest ∧ ∀ (more : Nat) (other : List Char), fuel ≤ more →
      readItems more depth done (read ++ other) = some (value, other)

/-- Fields that are still to come are read with more fuel and anything behind the object. -/
def LocalFields (fuel : Nat) : Prop :=
  ∀ depth done text value rest, readFields fuel depth done text = some (value, rest) →
    ∃ read, read ≠ [] ∧ text = read ++ rest ∧ ∀ (more : Nat) (other : List Char), fuel ≤ more →
      readFields more depth done (read ++ other) = some (value, other)

variable {fuel : Nat}

/-- What follows an item of an array. -/
def afterItem (fuel depth : Nat) (done : List Value) : Reader Value := fun rest =>
  match skipSpace rest with
  | ',' :: rest => readItems fuel depth done rest
  | ']' :: rest => some (.array done.reverse, rest)
  | _ => none

theorem readItems_eq {depth : Nat} {done : List Value} {text rest : List Char} {value : Value} :
    readItems (fuel + 1) depth done text = some (value, rest) ↔
      ∃ item behind, readValue fuel depth text = some (item, behind) ∧
        afterItem fuel depth (item :: done) behind = some (value, rest) := by
  rw [readItems]
  constructor
  · intro h
    split at h
    · cases h
    · next item behind hitem => exact ⟨item, behind, hitem, h⟩
  · rintro ⟨item, behind, hitem, h⟩
    rw [hitem]
    exact h

theorem afterItem_local (hitems : LocalItems fuel) {depth : Nat} {done : List Value}
    {behind rest : List Char} {value : Value}
    (h : afterItem fuel depth done behind = some (value, rest)) :
    ∃ last, last ≠ [] ∧ behind = last ++ rest ∧ ∀ (more : Nat) (other : List Char), fuel ≤ more →
      afterItem more depth done (last ++ other) = some (value, other) := by
  unfold afterItem at h
  split at h
  · next tail hcomma =>
    obtain ⟨spaces, rfl, hskip⟩ := exists_spaces hcomma
    obtain ⟨last, _, rfl, hlast⟩ := hitems _ _ _ _ _ h
    refine ⟨spaces ++ ',' :: last, by simp, by simp, fun more other hmore => ?_⟩
    rw [List.append_assoc, List.cons_append, afterItem, hskip]
    exact hlast more other hmore
  · next tail hclose =>
    obtain ⟨spaces, rfl, hskip⟩ := exists_spaces hclose
    cases h
    refine ⟨spaces ++ [']'], by simp, by simp, fun more other hmore => ?_⟩
    rw [List.append_assoc, List.singleton_append, afterItem, hskip]
    rfl
  · cases h

theorem localItems_succ (hvalue : LocalValue fuel) (hitems : LocalItems fuel) :
    LocalItems (fuel + 1) := by
  intro depth done text value rest h
  obtain ⟨item, behind, hitem, hbehind⟩ := readItems_eq.mp h
  obtain ⟨read, rfl, hread⟩ := hvalue _ _ _ _ hitem
  obtain ⟨last, hne, rfl, hlast⟩ := afterItem_local hitems hbehind
  refine ⟨read ++ last, by simp [hne], by simp, fun more other hmore => ?_⟩
  obtain ⟨k, rfl⟩ : ∃ k, more = k + 1 := ⟨more - 1, by omega⟩
  rw [List.append_assoc]
  exact readItems_eq.mpr ⟨item, last ++ other,
    hread k _ (by omega) (Or.inr (head?_append_of_ne_nil hne rest other)),
    hlast k other (by omega)⟩

/-- What follows the value of a field. -/
def afterField (fuel depth : Nat) (done : Object) : Reader Value := fun rest =>
  match skipSpace rest with
  | ',' :: rest => readFields fuel depth done rest
  | '\x7d' :: rest => some (.object done.reverse, rest)
  | _ => none

/-- A field is a key, a colon and a value. -/
theorem readFields_eq {depth : Nat} {done : Object} {text rest : List Char} {value : Value} :
    readFields (fuel + 1) depth done text = some (value, rest) ↔
      ∃ start key afterKey start' item behind, skipSpace text = '"' :: start ∧
        readString (start.length + 1) [] start = some (key, afterKey) ∧
        skipSpace afterKey = ':' :: start' ∧
        readValue fuel depth start' = some (item, behind) ∧
        afterField fuel depth ((key, item) :: done) behind = some (value, rest) := by
  rw [readFields]
  constructor
  · intro h
    split at h
    case h_2 => cases h
    next start hquote =>
    split at h
    · cases h
    next key afterKey hkey =>
    split at h
    case h_2 => cases h
    next start' hcolon =>
    split at h
    · cases h
    next item behind hitem =>
    exact ⟨start, key, afterKey, start', item, behind, hquote, hkey, hcolon, hitem, h⟩
  · rintro ⟨start, key, afterKey, start', item, behind, hquote, hkey, hcolon, hitem, h⟩
    split
    · next heq =>
      cases hquote.symm.trans heq
      rw [hkey]
      dsimp only
      split
      · next heq =>
        cases hcolon.symm.trans heq
        rw [hitem]
        exact h
      · next hnone => exact absurd hcolon (hnone _)
    · next hnone => exact absurd hquote (hnone _)

theorem afterField_local (hfields : LocalFields fuel) {depth : Nat} {done : Object}
    {behind rest : List Char} {value : Value}
    (h : afterField fuel depth done behind = some (value, rest)) :
    ∃ last, last ≠ [] ∧ behind = last ++ rest ∧ ∀ (more : Nat) (other : List Char), fuel ≤ more →
      afterField more depth done (last ++ other) = some (value, other) := by
  unfold afterField at h
  split at h
  · next tail hcomma =>
    obtain ⟨spaces, rfl, hskip⟩ := exists_spaces hcomma
    obtain ⟨last, _, rfl, hlast⟩ := hfields _ _ _ _ _ h
    refine ⟨spaces ++ ',' :: last, by simp, by simp, fun more other hmore => ?_⟩
    rw [List.append_assoc, List.cons_append, afterField, hskip]
    exact hlast more other hmore
  · next tail hclose =>
    obtain ⟨spaces, rfl, hskip⟩ := exists_spaces hclose
    cases h
    refine ⟨spaces ++ ['\x7d'], by simp, by simp, fun more other hmore => ?_⟩
    rw [List.append_assoc, List.singleton_append, afterField, hskip]
    rfl
  · cases h

theorem localFields_succ (hvalue : LocalValue fuel) (hfields : LocalFields fuel) :
    LocalFields (fuel + 1) := by
  intro depth done text value rest h
  obtain ⟨start, key, afterKey, start', item, behind, hquote, hkey, hcolon, hitem, hbehind⟩ :=
    readFields_eq.mp h
  obtain ⟨spaces, rfl, hspaces⟩ := exists_spaces hquote
  obtain ⟨name, rfl, hname⟩ := readString_closed hkey
  obtain ⟨spaces', rfl, hspaces'⟩ := exists_spaces hcolon
  obtain ⟨read, rfl, hread⟩ := hvalue _ _ _ _ hitem
  obtain ⟨last, hne, rfl, hlast⟩ := afterField_local hfields hbehind
  refine ⟨spaces ++ '"' :: (name ++ (spaces' ++ ':' :: (read ++ last))), by simp, by simp,
    fun more other hmore => ?_⟩
  obtain ⟨k, rfl⟩ : ∃ k, more = k + 1 := ⟨more - 1, by omega⟩
  simp only [List.append_assoc, List.cons_append]
  refine readFields_eq.mpr ⟨_, _, _, _, _, _, hspaces _, hname _ _ (by simp; omega), hspaces' _,
    hread k _ (by omega) (Or.inr ?_), hlast k other (by omega)⟩
  exact head?_append_of_ne_nil hne rest other

/-- An array or object behind its opening bracket. -/
def opened (close : Char) (empty : Value) (inner : Reader Value) : Reader Value := fun rest =>
  if (skipSpace rest).head? = some close then some (empty, (skipSpace rest).tail)
  else inner (skipSpace rest)

theorem opened_local {close : Char} {empty : Value} (inner : Nat → Reader Value)
    (hinner : ∀ text value rest, inner fuel text = some (value, rest) → ∃ read, read ≠ [] ∧
      text = read ++ rest ∧ ∀ (more : Nat) (other : List Char), fuel ≤ more →
        inner more (read ++ other) = some (value, other))
    {text rest : List Char} {value : Value}
    (h : opened close empty (inner fuel) text = some (value, rest)) :
    ∃ read, text = read ++ rest ∧ ∀ (more : Nat) (other : List Char), fuel ≤ more →
      opened close empty (inner more) (read ++ other) = some (value, other) := by
  unfold opened at h
  split_ifs at h with hclose
  · obtain ⟨tail, htail⟩ := List.head?_eq_some_iff.mp hclose
    rw [htail] at h
    cases h
    obtain ⟨spaces, rfl, hspaces⟩ := exists_spaces htail
    refine ⟨spaces ++ [close], by simp, fun more other _ => ?_⟩
    rw [List.append_assoc, List.singleton_append, opened, hspaces]
    exact if_pos rfl
  · obtain ⟨read, hne, hsame, hread⟩ := hinner _ _ _ h
    obtain ⟨c, read, rfl⟩ := List.exists_cons_of_ne_nil hne
    obtain ⟨spaces, rfl, hspaces⟩ := exists_spaces hsame
    refine ⟨spaces ++ c :: read, by simp, fun more other hmore => ?_⟩
    rw [hsame] at hclose
    rw [List.append_assoc, List.cons_append, opened, hspaces]
    exact (if_neg hclose).trans (hread more other hmore)

/-- A value from its first character on. -/
def readToken (fuel depth : Nat) : Reader Value
  | [] => none
  | 'n' :: rest => readWord ['u', 'l', 'l'] .null rest
  | 't' :: rest => readWord ['r', 'u', 'e'] (.bool true) rest
  | 'f' :: rest => readWord ['a', 'l', 's', 'e'] (.bool false) rest
  | '"' :: rest => (readString (rest.length + 1) [] rest).map fun (s, rest) => (.string s, rest)
  | '[' :: rest =>
    if depth ≤ 1 then none
    else opened ']' (.array []) (readItems fuel (depth - 1) []) rest
  | '\x7b' :: rest =>
    if depth ≤ 1 then none
    else opened '\x7d' (.object []) (readFields fuel (depth - 1) []) rest
  | rest => (readNumber rest).map fun (n, rest) => (.number n, rest)

theorem readValue_eq {depth : Nat} {text : List Char} :
    readValue (fuel + 1) depth text = readToken fuel depth (skipSpace text) := by
  rw [readValue]
  split
  · next hskip => rw [hskip, readToken]
  · next hskip => rw [hskip, readToken]
  · next hskip => rw [hskip, readToken]
  · next hskip => rw [hskip, readToken]
  · next hskip => rw [hskip, readToken]
  · next rest hskip =>
    rw [hskip, readToken, opened]
    split_ifs with hdepth hclose
    · rfl
    · obtain ⟨tail, htail⟩ := List.head?_eq_some_iff.mp hclose
      rw [htail]
      rfl
    · split
      · next hsome => exact absurd (by rw [hsome]; rfl) hclose
      · rfl
  · next rest hskip =>
    rw [hskip, readToken, opened]
    split_ifs with hdepth hclose
    · rfl
    · obtain ⟨tail, htail⟩ := List.head?_eq_some_iff.mp hclose
      rw [htail]
      rfl
    · split
      · next hsome => exact absurd (by rw [hsome]; rfl) hclose
      · rfl
  · rw [readToken] <;> assumption

/-- A text that begins like one that is read as a number is read as a number. -/
theorem readToken_of_head? {depth : Nat} {text other : List Char} (hhead : other.head? = text.head?)
    (hnil : text ≠ [])
    (hspecial : ∀ c ∈ ['n', 't', 'f', '"', '[', '\x7b'], ∀ tail, text ≠ c :: tail) :
    readToken fuel depth other = (readNumber other).map fun (n, rest) => (.number n, rest) := by
  have hother : ∀ c ∈ ['n', 't', 'f', '"', '[', '\x7b'], ∀ tail, other = c :: tail → False := by
    rintro c hin tail rfl
    obtain ⟨tail, htail⟩ := List.head?_eq_some_iff.mp hhead.symm
    exact hspecial c hin tail htail
  rw [readToken]
  · rintro rfl
    exact hnil (List.head?_eq_none_iff.mp hhead.symm)
  all_goals exact hother _ (by decide)

theorem localToken (hitems : LocalItems fuel) (hfields : LocalFields fuel) {depth : Nat}
    {text rest : List Char} {value : Value}
    (h : readToken fuel depth text = some (value, rest)) :
    ∃ read, text = read ++ rest ∧ ∀ (more : Nat) (other : List Char), fuel ≤ more →
      ((∀ n, value ≠ .number n) ∨ other.head? = rest.head?) →
      (read ++ other).head? = text.head? ∧
        readToken more depth (read ++ other) = some (value, other) := by
  unfold readToken at h
  split at h
  · cases h
  · next tail =>
    obtain ⟨read, rfl, hread⟩ := readWord_closed _ _ _ h
    exact ⟨'n' :: read, rfl, fun _ other _ _ => ⟨rfl, hread other⟩⟩
  · next tail =>
    obtain ⟨read, rfl, hread⟩ := readWord_closed _ _ _ h
    exact ⟨'t' :: read, rfl, fun _ other _ _ => ⟨rfl, hread other⟩⟩
  · next tail =>
    obtain ⟨read, rfl, hread⟩ := readWord_closed _ _ _ h
    exact ⟨'f' :: read, rfl, fun _ other _ _ => ⟨rfl, hread other⟩⟩
  · next tail =>
    obtain ⟨⟨s, behind⟩, hs, heq⟩ := Option.map_eq_some_iff.mp h
    cases heq
    obtain ⟨read, rfl, hread⟩ := readString_closed hs
    refine ⟨'"' :: read, rfl, fun _ other _ _ => ⟨rfl, ?_⟩⟩
    exact Option.map_eq_some_iff.mpr ⟨(s, other), hread _ _ (by simp; omega), rfl⟩
  · next tail =>
    split_ifs at h with hdepth
    obtain ⟨read, rfl, hread⟩ := opened_local (fun more => readItems more (depth - 1) [])
      (fun _ _ _ => hitems _ _ _ _ _) h
    exact ⟨'[' :: read, rfl, fun more other hmore _ =>
      ⟨rfl, (if_neg hdepth).trans (hread more other hmore)⟩⟩
  · next tail =>
    split_ifs at h with hdepth
    obtain ⟨read, rfl, hread⟩ := opened_local (fun more => readFields more (depth - 1) [])
      (fun _ _ _ => hfields _ _ _ _ _) h
    exact ⟨'\x7b' :: read, rfl, fun more other hmore _ =>
      ⟨rfl, (if_neg hdepth).trans (hread more other hmore)⟩⟩
  · next hnil hnull htrue hfalse hquote harray hobject =>
    obtain ⟨⟨n, behind⟩, hn, heq⟩ := Option.map_eq_some_iff.mp h
    cases heq
    obtain ⟨read, rfl, hread⟩ := readNumber_local _ _ _ hn
    refine ⟨read, rfl, fun more other _ hnext => ?_⟩
    have hhead : other.head? = rest.head? := hnext.resolve_left fun hne => hne n rfl
    have hsame := head?_append_congr hhead read
    refine ⟨hsame, ?_⟩
    rw [readToken_of_head? hsame hnil]
    · exact Option.map_eq_some_iff.mpr ⟨(n, other), hread other hhead, rfl⟩
    · simp only [List.forall_mem_cons, List.not_mem_nil, false_imp_iff, implies_true, and_true]
      exact ⟨hnull, htrue, hfalse, hquote, harray, hobject⟩

theorem localValue_succ (hitems : LocalItems fuel) (hfields : LocalFields fuel) :
    LocalValue (fuel + 1) := by
  intro depth text value rest h
  rw [readValue_eq] at h
  obtain ⟨read, hskip, hread⟩ := localToken hitems hfields h
  refine ⟨text.takeWhile isSpace ++ read, ?_, fun more other hmore hnext => ?_⟩
  · rw [List.append_assoc, ← hskip]
    exact List.takeWhile_append_dropWhile.symm
  · obtain ⟨k, rfl⟩ : ∃ k, more = k + 1 := ⟨more - 1, by omega⟩
    obtain ⟨hhead, htoken⟩ := hread k other (by omega) hnext
    have hother : skipSpace (text.takeWhile isSpace ++ (read ++ other)) = read ++ other :=
      (takeWhile_append hhead).2
    rw [List.append_assoc, readValue_eq, hother]
    exact htoken

/-- **Reading is local**, whatever the fuel. -/
theorem local_all (fuel : Nat) : LocalValue fuel ∧ LocalItems fuel ∧ LocalFields fuel := by
  induction fuel with
  | zero =>
    refine ⟨fun _ _ _ _ h => ?_, fun _ _ _ _ _ h => ?_, fun _ _ _ _ _ h => ?_⟩
    · rw [readValue] at h; cases h
    · rw [readItems] at h; cases h
    · rw [readFields] at h; cases h
  | succ fuel ih =>
    obtain ⟨hvalue, hitems, hfields⟩ := ih
    exact ⟨localValue_succ hitems hfields, localItems_succ hvalue hitems,
      localFields_succ hvalue hfields⟩

end Values

end DocumentDb.Json
