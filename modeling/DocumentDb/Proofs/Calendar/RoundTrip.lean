import DocumentDb.Proofs.Calendar.Reading

/-!
# Times that are written and read

The text of a time is read back as the time, cut to milliseconds, if its year has four digits. The
text of a time in another year begins with a sign, and is not read at all.
-/

namespace DocumentDb

open Calendar

namespace Instant

variable {t : Instant}

/-! ### What a text shows -/

/-- The time without what its text does not show. -/
def cut (t : Instant) : Instant := { t with nanos := t.nanos / 1000000 * 1000000 }

/-- The seconds of the day that are behind a time. -/
def secondOfDay (t : Instant) : Nat := (t.seconds % secondsPerDay).toNat

/-- The second that the text shows, which is the sixtieth of its minute for a leap second. -/
def shownSecond (t : Instant) : Nat :=
  t.secondOfDay % 60 + (if t.nanos ≥ nanosPerSecond then 1 else 0)

/-- The milliseconds that the text shows. -/
def shownMillis (t : Instant) : Nat :=
  (if t.nanos ≥ nanosPerSecond then t.nanos - nanosPerSecond else t.nanos) / 1000000

/-- The text of a time, character by character. -/
theorem toList_text (t : Instant) : t.text.toList =
    (yearText t.date.year).toList ++ '-' :: ((Text.padded 2 t.date.month).toList ++
      '-' :: ((Text.padded 2 t.date.day).toList ++
        'T' :: ((Text.padded 2 (t.secondOfDay / 3600)).toList ++
          ':' :: ((Text.padded 2 (t.secondOfDay / 60 % 60)).toList ++
            ':' :: ((Text.padded 2 t.shownSecond).toList ++
              '.' :: ((Text.padded 3 t.shownMillis).toList ++ ['Z'])))))) := by
  simp [text, secondOfDay, shownSecond, shownMillis]

theorem text_cut (t : Instant) : t.cut.text = t.text := by
  have hcut : t.cut.nanos = t.nanos / 1000000 * 1000000 := rfl
  have hnano : nanosPerSecond = 1000000000 := rfl
  have hleap : t.cut.nanos ≥ nanosPerSecond ↔ t.nanos ≥ nanosPerSecond := by omega
  have hsecond : t.cut.shownSecond = t.shownSecond := by
    unfold shownSecond
    simp only [hleap]
    rfl
  have hmillis : t.cut.shownMillis = t.shownMillis := by
    unfold shownMillis
    simp only [hleap]
    split_ifs <;> omega
  rw [← String.toList_inj, toList_text, toList_text, hsecond, hmillis]
  rfl

/-- **A time is made of the parts that its text shows**, but for what is cut off. -/
theorem ofParts_shown (h : t.Proper) : ofParts t.date (t.secondOfDay / 3600)
    (t.secondOfDay / 60 % 60) t.shownSecond (t.shownMillis * 1000000) = t.cut := by
  have hdays : t.date.toDays = t.seconds / secondsPerDay := Date.toDays_ofDays _
  have hday : t.secondOfDay = (t.seconds % 86400).toNat := rfl
  have hnano : nanosPerSecond = 1000000000 := rfl
  have hleap := h.leap
  unfold ofParts cut shownSecond shownMillis
  rw [hdays, show secondsPerDay = 86400 from rfl, Instant.mk.injEq]
  constructor
  · split_ifs <;> omega
  · split_ifs <;> omega

theorem secondOfDay_lt (t : Instant) : t.secondOfDay < 86400 := by
  unfold secondOfDay secondsPerDay
  omega

/-- The second and the milliseconds that a text shows. -/
theorem shown_le (h : t.Proper) : t.shownSecond ≤ 60 ∧ t.shownMillis < 1000 := by
  have hnano : nanosPerSecond = 1000000000 := rfl
  have hnanos := h.nanos
  unfold shownSecond shownMillis
  constructor
  · split_ifs <;> omega
  · split_ifs <;> omega

end Instant

namespace Calendar

variable {t : Instant}

theorem readChar_cons (c : Char) (rest : List Char) : readChar c (c :: rest) = some rest :=
  if_pos rfl

/-- **The first form** is read part by part, each of its full width. -/
theorem readWithOffset_padded {year month day hour minute second milli : Nat} {date : Date}
    (hyear : year < 10 ^ 4) (hmonth : month < 10 ^ 2) (hday : day < 10 ^ 2) (hhour : hour < 10 ^ 2)
    (hminute : minute < 10 ^ 2) (hsecond : second < 10 ^ 2) (hmilli : milli < 1000)
    (hdate : Date.ofParts? year month day = some date)
    (hcivil : instant? date hour minute second (milli * 1000000) = some t) :
    readWithOffset ((Text.padded 4 year).toList ++ '-' :: ((Text.padded 2 month).toList ++
      '-' :: ((Text.padded 2 day).toList ++ 'T' :: ((Text.padded 2 hour).toList ++
        ':' :: ((Text.padded 2 minute).toList ++ ':' :: ((Text.padded 2 second).toList ++
          '.' :: ((Text.padded 3 milli).toList ++ ['Z']))))))) = some t := by
  have hfour := readNumber_padded (show 0 < 4 by decide) hyear (by unfold numberLimit; omega)
  have htwo : ∀ {n : Nat}, n < 10 ^ 2 → ∀ rest,
      readNumber 2 2 ((Text.padded 2 n).toList ++ rest) = some (n, rest) := fun hn =>
    readNumber_padded (by decide) hn (by unfold numberLimit; omega)
  unfold readWithOffset
  refine Option.bind_eq_some_iff.mpr ⟨_, hfour _, ?_⟩
  refine Option.bind_eq_some_iff.mpr ⟨_, readChar_cons _ _, ?_⟩
  refine Option.bind_eq_some_iff.mpr ⟨_, htwo hmonth _, ?_⟩
  refine Option.bind_eq_some_iff.mpr ⟨_, readChar_cons _ _, ?_⟩
  refine Option.bind_eq_some_iff.mpr ⟨_, htwo hday _, ?_⟩
  -- The letter between the date and the time of day.
  dsimp only
  rw [if_pos (by decide)]
  refine Option.bind_eq_some_iff.mpr ⟨_, Eq.refl (some _), ?_⟩
  refine Option.bind_eq_some_iff.mpr ⟨_, htwo hhour _, ?_⟩
  refine Option.bind_eq_some_iff.mpr ⟨_, readChar_cons _ _, ?_⟩
  refine Option.bind_eq_some_iff.mpr ⟨_, htwo hminute _, ?_⟩
  refine Option.bind_eq_some_iff.mpr ⟨_, readChar_cons _ _, ?_⟩
  refine Option.bind_eq_some_iff.mpr ⟨_, htwo hsecond _, ?_⟩
  refine Option.bind_eq_some_iff.mpr ⟨_, readFraction_padded hmilli, ?_⟩
  -- The mark of universal time, with nothing behind it.
  refine Option.bind_eq_some_iff.mpr ⟨(0, []), rfl, ?_⟩
  refine Option.bind_eq_some_iff.mpr ⟨_, hdate, Option.bind_eq_some_iff.mpr ⟨_, hcivil, ?_⟩⟩
  dsimp only
  rw [Int.sub_zero]
  rfl

/-- **The text of a time in a year of four digits** is read back. -/
theorem readWithOffset_text (h : t.Proper) (hyear : t.FourDigit) :
    readWithOffset t.text.toList = some t.cut := by
  have hvalid : t.date.Valid := Date.ofDays_valid _
  have hleast := hyear.least
  have hmost := hyear.most
  have hsmall : t.date.month < 100 ∧ t.date.day < 100 := Instant.ofDays_small _
  have hday := t.secondOfDay_lt
  obtain ⟨hsecond, hmilli⟩ := Instant.shown_le h
  have hyearText : Instant.yearText t.date.year = Text.padded 4 t.date.year.toNat := by
    rw [Instant.yearText, if_pos (by simp [hleast, hmost])]
  have hcast : (t.date.year.toNat : Int) = t.date.year := Int.toNat_of_nonneg hleast
  have hrange : Date.yearRange t.date.year = true := by
    simp only [Date.yearRange, Bool.and_eq_true, decide_eq_true_eq]
    omega
  have hparts := hvalid.ofParts? hrange
  rw [Instant.toList_text, hyearText]
  refine readWithOffset_padded (by omega) hsmall.1 hsmall.2 (by omega) (by omega) (by omega) hmilli
    (hcast.symm ▸ hparts) ?_
  rw [instant?, if_pos, Instant.ofParts_shown h]
  simp only [Bool.and_eq_true, decide_eq_true_eq]
  omega

/-! ### Other years -/

/-- The text of a year begins with a digit if the year has four digits, and with a sign if not. -/
theorem yearText_cons (year : Int) : ∃ c rest, (Instant.yearText year).toList = c :: rest ∧
    Text.isBlank c = false ∧ (isDigit c = true ↔ 0 ≤ year ∧ year ≤ 9999) := by
  unfold Instant.yearText
  split_ifs with hyear hsign
  · have hlength := Text.le_length_padded 4 year.toNat
    have hpos : 0 < (Text.padded 4 year.toNat).toList.length := by
      rw [String.length_toList]
      omega
    obtain ⟨c, rest, htext⟩ := List.exists_cons_of_length_pos hpos
    have hdigit : c.isDigit := Text.isDigit_of_mem_padded (htext ▸ List.mem_cons_self)
    exact ⟨c, rest, htext, isBlank_of_isDigit hdigit, iff_of_true hdigit (by simpa using hyear)⟩
  · exact ⟨'-', (Text.padded 4 year.natAbs).toList, by simp, rfl,
      iff_of_false Bool.false_ne_true (by simpa using hyear)⟩
  · exact ⟨'+', (Text.padded 4 year.natAbs).toList, by simp, rfl,
      iff_of_false Bool.false_ne_true (by simpa using hyear)⟩

theorem trimmed_text (t : Instant) : Text.Trimmed t.text.toList := by
  obtain ⟨c, rest, hyear, hblank, -⟩ := yearText_cons t.date.year
  obtain ⟨front, hfront⟩ : ∃ front, t.text.toList = front ++ ['Z'] := ⟨_, String.toList_append⟩
  refine ⟨fun d hd => ?_, fun d hd => ?_⟩
  · rw [Instant.toList_text, hyear] at hd
    cases hd
    exact hblank
  · rw [hfront, List.getLast?_concat] at hd
    cases hd
    rfl

theorem readWithOffset_of_not_isDigit {c : Char} (h : isDigit c = false) (rest : List Char) :
    readWithOffset (c :: rest) = none := by
  have hnone : readNumber 4 4 (c :: rest) = none := by simp [readNumber, h]
  rw [readWithOffset, hnone]
  rfl

/-- **What is read from the text of a time.** -/
theorem readInstant?_text (h : t.Proper) :
    readInstant? t.text = if 0 ≤ t.date.year ∧ t.date.year ≤ 9999 then some t.cut else none := by
  have htrim := (trimmed_text t).trimChars
  have hmark : 'Z' ∈ Text.trimChars t.text.toList := by
    rw [htrim, Instant.toList_text]
    simp
  rw [readInstant?_of_mem hmark, htrim]
  split_ifs with hyear
  · exact readWithOffset_text h ⟨hyear.1, hyear.2, h.nanos⟩
  · obtain ⟨c, rest, htext, -, hdigit⟩ := yearText_cons t.date.year
    rw [Instant.toList_text, htext]
    exact readWithOffset_of_not_isDigit (Bool.eq_false_iff.mpr (mt hdigit.mp hyear)) _

/-- A time of the year 9999 may be in the next year in universal time. -/
example : (readInstant? "9999-12-31T23:59:59-01:00").map Instant.text =
    some "+10000-01-01T00:59:59.000Z" ∧ readInstant? "+10000-01-01T00:59:59.000Z" = none := by
  decide

end Calendar

end DocumentDb
