import DocumentDb.Proofs.Calendar.RoundTrip
import DocumentDb.Proofs.Query.Operators
import DocumentDb.Proofs.Query.SortOrder
import DocumentDb.Proofs.Query.Spelling
import Mathlib.Order.Monotone.Basic
import Mathlib.Tactic.IntervalCases

/-!
# Times in the order of their texts

The text of a time shows the year first and the milliseconds last, every part in its full width, so
texts of years of four digits are in the order of the times. The days of a date are counted from the
beginnings of the months. These are in the order of the months, as each month is as long as the
calendar says.

* `Date.toDays_lt_iff`: earlier dates have fewer days.
* `Instant.text_lt_iff`: earlier times have smaller texts.
* `Instant.text_read_sorted`: texts of times are read back, and filters and sorting compare them as
  times.
-/

namespace DocumentDb

namespace Date

/-! ### The order of dates -/

/-- The number of the month of a date, counted from March of the year 0. -/
def monthNumber (date : Date) : Int := 12 * date.year + date.month - 3

/-- The day that a month begins with. -/
def monthStart (number : Int) : Int :=
  365 * (number / 12) + number / 12 / 4 - number / 12 / 100 + number / 12 / 400 +
    (153 * (number % 12) + 2) / 5 - epochOffset

variable {a b : Date}

theorem toDays_eq (h : a.Valid) : a.toDays = monthStart a.monthNumber + a.day - 1 := by
  have hmonth := h.month_pos
  have hmonth' := h.month_le
  have hday := h.day_pos
  have hyear : a.monthNumber / 12 = if a.month ≤ 2 then a.year - 1 else a.year := by
    unfold monthNumber
    split_ifs <;> omega
  have hnumber : a.monthNumber % 12 = ((a.month + 9) % 12 : Nat) := by
    unfold monthNumber
    omega
  unfold monthStart toDays
  rw [hyear, hnumber]
  dsimp only
  omega

/-- **A month begins a month's length behind the one before it.** -/
theorem monthStart_succ (h : a.Valid) :
    monthStart (a.monthNumber + 1) = monthStart a.monthNumber + daysInMonth a.year a.month := by
  obtain ⟨year, month, day⟩ := a
  have hmonth := h.month_pos
  have hmonth' := h.month_le
  have hleap : isLeapYear year = decide (year % 4 = 0 ∧ (year % 100 ≠ 0 ∨ year % 400 = 0)) := by
    simp [isLeapYear, Bool.beq_eq_decide_eq, bne]
  dsimp only at hmonth hmonth'
  simp only [monthStart, monthNumber, daysInMonth, hleap, decide_eq_true_eq]
  interval_cases month <;> simp <;> omega

theorem monthStart_mono {m n : Int} (h : m ≤ n) : monthStart m ≤ monthStart n := by
  have hstep : ∀ number, monthStart number ≤ monthStart (number + 1) := by
    intro number
    unfold monthStart
    omega
  exact monotone_int_of_le_succ hstep h

/-- **A date stands before another one**: by its year, by its month in the same year, or by its day
in the same month. -/
def Before (a b : Date) : Prop :=
  a.year < b.year ∨ a.year = b.year ∧
    (a.month < b.month ∨ a.month = b.month ∧ a.day < b.day)

theorem Before.toDays_lt (ha : a.Valid) (hb : b.Valid) (h : Before a b) : a.toDays < b.toDays := by
  have hday := ha.day_le
  have hday' := hb.day_pos
  have hmonth := ha.month_le
  have hmonth' := hb.month_pos
  rw [toDays_eq ha, toDays_eq hb]
  by_cases hsame : a.monthNumber = b.monthNumber
  · have hless : a.day < b.day := by
      unfold Before at h
      unfold monthNumber at hsame
      have := ha.month_pos
      have := hb.month_le
      omega
    rw [hsame]
    omega
  · -- The month of the later date begins behind the last day of the month of the earlier one.
    have hnext : a.monthNumber + 1 ≤ b.monthNumber := by
      unfold Before at h
      unfold monthNumber at hsame ⊢
      omega
    have hstart := monthStart_mono hnext
    rw [monthStart_succ ha] at hstart
    omega

theorem before_or_eq_or_before (a b : Date) : Before a b ∨ a = b ∨ Before b a := by
  obtain ⟨year, month, day⟩ := a
  obtain ⟨year', month', day'⟩ := b
  simp only [Before, Date.mk.injEq]
  omega

theorem Before.irrefl (a : Date) : ¬ Before a a := by
  simp [Before]

theorem Before.asymm (h : Before a b) : ¬ Before b a := by
  unfold Before at h ⊢
  omega

/-- **Earlier dates have fewer days.** -/
theorem toDays_lt_iff (ha : a.Valid) (hb : b.Valid) : a.toDays < b.toDays ↔ Before a b := by
  refine ⟨fun h => ?_, Before.toDays_lt ha hb⟩
  rcases before_or_eq_or_before a b with hbefore | rfl | hbehind
  · exact hbefore
  · exact absurd h (lt_irrefl _)
  · exact absurd h (hbehind.toDays_lt hb ha).asymm

/-- What is compared behind the parts of dates is compared behind the dates. -/
theorem before_or_iff {rest : Prop} :
    (a.year < b.year ∨ a.year = b.year ∧ (a.month < b.month ∨ a.month = b.month ∧
      (a.day < b.day ∨ a.day = b.day ∧ rest))) ↔ Before a b ∨ a = b ∧ rest := by
  obtain ⟨year, month, day⟩ := a
  obtain ⟨year', month', day'⟩ := b
  simp only [Before, Date.mk.injEq]
  tauto

end Date

namespace Instant

/-! ### The order of texts -/

variable {t u : Instant}

theorem date_valid (t : Instant) : t.date.Valid := Date.ofDays_valid _

/-- The days of the date of a time are those of its seconds. -/
theorem seconds_eq (t : Instant) : t.seconds = t.date.toDays * 86400 + t.secondOfDay := by
  have hdays : t.date.toDays = t.seconds / 86400 := Date.toDays_ofDays _
  unfold secondOfDay secondsPerDay
  omega

/-- A time of a year of four digits that is in no leap second. -/
structure Regular (t : Instant) : Prop where
  least : 0 ≤ t.date.year
  most : t.date.year ≤ 9999
  nanos : t.nanos < nanosPerSecond

theorem Regular.proper (h : t.Regular) : t.Proper where
  nanos := h.nanos.trans (by decide)
  leap hleap := absurd h.nanos (Nat.not_lt_of_le hleap)

/-- Times are in the order of their dates, of the seconds of the day and of the milliseconds. -/
theorem cut_before_cut_iff (ht : t.Regular) (hu : u.Regular) : t.cut.before u.cut = true ↔
    Date.Before t.date u.date ∨ t.date = u.date ∧ (t.secondOfDay < u.secondOfDay ∨
      t.secondOfDay = u.secondOfDay ∧ t.shownMillis < u.shownMillis) := by
  have hcut : t.cut.before u.cut = true ↔
      t.seconds < u.seconds ∨ t.seconds = u.seconds ∧ t.shownMillis < u.shownMillis := by
    unfold before cut shownMillis
    rw [if_neg (Nat.not_le_of_lt ht.nanos), if_neg (Nat.not_le_of_lt hu.nanos)]
    simp only [Bool.or_eq_true, Bool.and_eq_true, decide_eq_true_eq, beq_iff_eq]
    omega
  have hsecond := t.secondOfDay_lt
  have hsecond' := u.secondOfDay_lt
  rw [hcut, t.seconds_eq, u.seconds_eq]
  rcases Date.before_or_eq_or_before t.date u.date with hbefore | heq | hbehind
  · have hdays := hbefore.toDays_lt t.date_valid u.date_valid
    exact iff_of_true (by omega) (Or.inl hbefore)
  · simp only [heq, Date.Before.irrefl, false_or, true_and]
    omega
  · have hdays := hbehind.toDays_lt u.date_valid t.date_valid
    refine iff_of_false (by omega) (not_or.mpr ⟨hbehind.asymm, fun h => ?_⟩)
    exact Date.Before.irrefl _ (h.1 ▸ hbehind)

/-- What is compared behind the parts of a time of day is compared behind its seconds. -/
theorem clock_or_iff {second other : Nat} {rest : Prop} :
    (second / 3600 < other / 3600 ∨ second / 3600 = other / 3600 ∧
      (second / 60 % 60 < other / 60 % 60 ∨ second / 60 % 60 = other / 60 % 60 ∧
        (second % 60 < other % 60 ∨ second % 60 = other % 60 ∧ rest))) ↔
      second < other ∨ second = other ∧ rest := by
  by_cases hrest : rest
  · simp only [hrest, and_true]
    omega
  · simp only [hrest, and_false, or_false]
    omega

/-- The parts of a text, each of which fits its width. -/
theorem Regular.parts (h : t.Regular) :
    t.text.toList = (Text.padded 4 t.date.year.toNat).toList ++ '-' ::
      ((Text.padded 2 t.date.month).toList ++ '-' :: ((Text.padded 2 t.date.day).toList ++
        'T' :: ((Text.padded 2 (t.secondOfDay / 3600)).toList ++
          ':' :: ((Text.padded 2 (t.secondOfDay / 60 % 60)).toList ++
            ':' :: ((Text.padded 2 (t.secondOfDay % 60)).toList ++
              '.' :: ((Text.padded 3 t.shownMillis).toList ++ ['Z'])))))) ∧
    t.date.year.toNat < 10 ^ 4 ∧ t.date.month < 10 ^ 2 ∧ t.date.day < 10 ^ 2 ∧
    t.secondOfDay / 3600 < 10 ^ 2 ∧ t.shownMillis < 10 ^ 3 := by
  have hleast := h.least
  have hmost := h.most
  have hyear : yearText t.date.year = Text.padded 4 t.date.year.toNat := by
    rw [yearText, if_pos (by simp [hleast, hmost])]
  have hsecond : t.shownSecond = t.secondOfDay % 60 := by
    rw [shownSecond, if_neg (Nat.not_le_of_lt h.nanos), Nat.add_zero]
  have hday := t.secondOfDay_lt
  rw [toList_text, hyear, hsecond]
  exact ⟨rfl, by omega, (ofDays_small _).1, (ofDays_small _).2, by omega, (shown_le h.proper).2⟩

/-- **The text of an earlier time is smaller.** Texts differ first where the times do. -/
theorem text_lt_iff (ht : t.Regular) (hu : u.Regular) :
    t.text < u.text ↔ t.cut.before u.cut = true := by
  obtain ⟨htext, hyear, hmonth, hday, hhour, hmilli⟩ := ht.parts
  obtain ⟨htext', hyear', hmonth', hday', hhour', hmilli'⟩ := hu.parts
  have hminute : ∀ n, n % 60 < 10 ^ 2 := fun n => by omega
  have hyears : (t.date.year.toNat < u.date.year.toNat ↔ t.date.year < u.date.year) ∧
      (t.date.year.toNat = u.date.year.toNat ↔ t.date.year = u.date.year) := by
    have := ht.least
    have := hu.least
    omega
  rw [String.lt_iff_toList_lt, htext, htext', Text.padded_append_lt_iff (by decide) hyear hyear',
    List.cons_lt_cons_self, Text.padded_append_lt_iff (by decide) hmonth hmonth',
    List.cons_lt_cons_self, Text.padded_append_lt_iff (by decide) hday hday',
    List.cons_lt_cons_self, Text.padded_append_lt_iff (by decide) hhour hhour',
    List.cons_lt_cons_self, Text.padded_append_lt_iff (by decide) (hminute _) (hminute _),
    List.cons_lt_cons_self, Text.padded_append_lt_iff (by decide) (hminute _) (hminute _),
    List.cons_lt_cons_self, Text.padded_append_lt_iff (by decide) hmilli hmilli',
    hyears.1, hyears.2, Date.before_or_iff, clock_or_iff, cut_before_cut_iff ht hu]
  simp

/-- The order of two times. -/
def order (t u : Instant) : Ordering :=
  if t.before u then .lt else if u.before t then .gt else .eq

theorem compare_text (ht : t.Regular) (hu : u.Regular) :
    compare t.text u.text = order t.cut u.cut := by
  unfold order
  simp only [← text_lt_iff ht hu, ← text_lt_iff hu ht]
  rcases lt_trichotomy t.text u.text with hlt | heq | hgt
  · rw [if_pos hlt, compare_lt_iff_lt.mpr hlt]
  · rw [heq, if_neg (lt_irrefl _), if_neg (lt_irrefl _), compare_eq_iff_eq.mpr rfl]
  · rw [if_neg hgt.asymm, if_pos hgt, compare_gt_iff_gt.mpr hgt]

/-- **No text of a time is a number**: behind its first digits there is a dash. -/
theorem readDouble?_text (h : t.Regular) : readDouble? (Text.trim t.text) = none := by
  obtain ⟨htext, -⟩ := h.parts
  have hyear : DigitRun (Text.padded 4 t.date.year.toNat).toList := by
    refine ⟨fun hnil => ?_, fun _ hc => Text.isDigit_of_mem_padded hc⟩
    have hlength := Text.le_length_padded 4 t.date.year.toNat
    rw [← String.length_toList, hnil] at hlength
    cases hlength
  rw [Text.trim, (Calendar.trimmed_text t).trimChars, htext,
    hyear.readDouble? (hyear.splitSign _), readMagnitude?_eq _ _ hyear (by simp [isDigit])]
  rfl

end Instant

/-! ### Comparisons of texts -/

/-- What an operator says of two values in an order. -/
def Operator.ofOrder (operator : Operator) (order : Ordering) : Bool :=
  match operator with
  | .eq | .strictEq => order.isEq
  | .ne => order.isNe
  | .gt => order.isGT
  | .ge => order.isGE
  | .lt => order.isLT
  | .le => order.isLE

/-- Texts that are no numbers are compared by their characters. -/
theorem compareValue_text {s t : String} (operator : Operator)
    (h : readDouble? (Text.trim s) = none) :
    compareValue (some (.string s)) operator (.text t) = operator.ofOrder (compare s t) := by
  have hequal : (s == t) = (compare s t).isEq := by
    rw [Bool.eq_iff_iff, beq_iff_eq, Ordering.isEq_iff_eq_eq, compare_eq_iff_eq]
  have horder : (Operand.text s).order? (.text t) = some (compare s t) := by
    simp only [Operand.order?, Operand.number?_text, h]
  unfold compareValue Operator.holds
  rw [Operand.ofValue, Operand.ofLiteral, horder]
  cases operator with
  | eq => exact hequal
  | strictEq => exact hequal
  | ne => exact (congrArg Bool.not hequal).trans (by cases compare s t <;> rfl)
  | gt | ge | lt | le => cases compare s t <;> rfl

/-- **Texts of times are read back and sorted as the times.** The text of a time in a year of four
digits is read as the time without what is behind its milliseconds, in leap seconds too. Outside
these, the text of an earlier time is smaller, and filters and sorting compare texts as they would
compare the times, each cut to milliseconds. -/
theorem Instant.text_read_sorted (t u : Instant) :
    (t.Proper → 0 ≤ t.date.year → t.date.year ≤ 9999 →
      Calendar.readInstant? t.text = some t.cut) ∧
    (t.Regular → u.Regular →
      (t.text < u.text ↔ t.cut.before u.cut = true) ∧
      (∀ operator, compareValue (some (.string t.text)) operator (.text u.text) =
        operator.ofOrder (order t.cut u.cut)) ∧
      sortOrder (some (.string t.text)) (some (.string u.text)) = order t.cut u.cut) := by
  refine ⟨fun ht hleast hmost => ?_, fun ht hu => ⟨text_lt_iff ht hu, fun operator => ?_, ?_⟩⟩
  · rw [Calendar.readInstant?_text ht, if_pos ⟨hleast, hmost⟩]
  · rw [compareValue_text operator (readDouble?_text ht), compare_text ht hu]
  · rw [sortOrder_some]
    exact compare_text ht hu

/-- The last moments of 1969 sort before the first ones of 1970, and a leap second is read back. -/
theorem Instant.new_year_sorted :
    Calendar.readInstant? "2016-12-31T23:59:60.123Z" = some ⟨1483228799, 1123000000⟩ ∧
    (⟨-1, 999999999⟩ : Instant).text < (⟨0, 0⟩ : Instant).text ∧
    compareValue (some (.string "1969-12-31T23:59:59.999Z")) .lt
      (.text "1970-01-01T00:00:00.000Z") = true := by
  have hleap : (⟨1483228799, 1123456789⟩ : Instant).text = "2016-12-31T23:59:60.123Z" := by decide
  have hbefore : (⟨-1, 999999999⟩ : Instant).text = "1969-12-31T23:59:59.999Z" := by decide
  have hbehind : (⟨0, 0⟩ : Instant).text = "1970-01-01T00:00:00.000Z" := by decide
  obtain ⟨hread, -⟩ := text_read_sorted ⟨1483228799, 1123456789⟩ ⟨0, 0⟩
  obtain ⟨-, hsorted⟩ := text_read_sorted ⟨-1, 999999999⟩ ⟨0, 0⟩
  obtain ⟨hless, hfilter, -⟩ := hsorted ⟨by decide, by decide, by decide⟩
    ⟨by decide, by decide, by decide⟩
  refine ⟨hleap ▸ hread ⟨by decide, fun _ => by decide⟩ (by decide) (by decide), ?_, ?_⟩
  · exact hless.mpr (by decide)
  · rw [← hbefore, ← hbehind, hfilter]
    decide

end DocumentDb
