import DocumentDb.Calendar.Reader
import DocumentDb.Proofs.Calendar.Days
import DocumentDb.Proofs.Calendar.Lengths
import DocumentDb.Proofs.Text.Casing

/-!
# Reading the texts of times

The text of a time is read back as the time, cut to milliseconds, if its year has four digits, and
not at all otherwise: the mark of universal time at its end stands only in the form whose fields
have their full width.
-/

namespace DocumentDb

/-! ### Times that are read -/

namespace Instant

/-- A time that the calendar has: what is behind a second is less than another second, and is more
than a second only at the end of a minute. -/
structure Proper (t : Instant) : Prop where
  nanos : t.nanos < 2 * nanosPerSecond
  leap : nanosPerSecond ≤ t.nanos → t.seconds % 60 = 59

theorem proper_ofParts {date : Date} {hour minute second nanos : Nat}
    (hnanos : nanos < nanosPerSecond) : (ofParts date hour minute second nanos).Proper := by
  unfold ofParts secondsPerDay
  refine ⟨?_, fun hleap => ?_⟩
  · dsimp only
    split_ifs <;> omega
  · dsimp only at hleap ⊢
    split_ifs at hleap ⊢ <;> omega

end Instant

namespace Calendar

variable {least most n width : Nat} {text rest digits : List Char} {t : Instant}

/-- What is read as a number are digits. -/
theorem readNumber_some (h : readNumber least most text = some (n, rest)) :
    ∃ digits, text = digits ++ rest ∧ (∀ c ∈ digits, c.isDigit) ∧ digits.length ≤ most ∧
      n = digitsValue digits := by
  unfold readNumber at h
  dsimp only at h
  split_ifs at h
  cases h
  have hprefix : (text.take most).takeWhile isDigit <+: text :=
    (List.takeWhile_prefix _).trans (List.take_prefix _ _)
  exact ⟨(text.take most).takeWhile isDigit, (List.prefix_iff_eq_append.mp hprefix).symm,
    fun c => List.mem_takeWhile_imp,
    (List.takeWhile_prefix _).length_le.trans (List.length_take_le _ _), rfl⟩

theorem readNanos_lt (h : readNanos text = some (n, rest)) : n < Instant.nanosPerSecond := by
  obtain ⟨⟨value, behind⟩, hvalue, h⟩ := Option.bind_eq_some_iff.mp h
  cases h
  obtain ⟨digits, rfl, hdigits, hmost, rfl⟩ := readNumber_some hvalue
  have hwidth : (digits ++ behind).length - behind.length = digits.length := by simp
  have hlt := ofDigitChars_lt hdigits
  rw [hwidth, digitsValue_eq]
  calc Nat.ofDigitChars 10 digits 0 * 10 ^ (9 - digits.length)
      < 10 ^ digits.length * 10 ^ (9 - digits.length) :=
        Nat.mul_lt_mul_of_pos_right hlt (Nat.pow_pos (by decide))
    _ = 10 ^ 9 := by rw [← Nat.pow_add, Nat.add_sub_cancel' hmost]
    _ = Instant.nanosPerSecond := rfl

theorem readFraction_lt (h : readFraction text = some (n, rest)) : n < Instant.nanosPerSecond := by
  unfold readFraction at h
  split at h
  · exact readNanos_lt h
  · cases h
    decide

/-- Offsets are whole minutes. -/
theorem readOffset_mod {offset : Int} (h : readOffset text = some (offset, rest)) :
    offset % 60 = 0 := by
  unfold readOffset at h
  split at h
  · cases h
    rfl
  · cases h
    rfl
  · dsimp only at h
    split at h
    · cases h
    · obtain ⟨hours, -, h⟩ := Option.bind_eq_some_iff.mp h
      obtain ⟨_, -, h⟩ := Option.bind_eq_some_iff.mp h
      obtain ⟨minutes, -, h⟩ := Option.bind_eq_some_iff.mp h
      split_ifs at h <;> cases h <;> omega
  · cases h

theorem proper_of_instant? {date : Date} {hour minute second nanos : Nat}
    (h : instant? date hour minute second nanos = some t)
    (hnanos : nanos < Instant.nanosPerSecond) : t.Proper := by
  unfold instant? at h
  split_ifs at h
  cases h
  exact Instant.proper_ofParts hnanos

theorem proper_of_readWithOffset (h : readWithOffset text = some t) : t.Proper := by
  obtain ⟨year, -, h⟩ := Option.bind_eq_some_iff.mp h
  obtain ⟨_, -, h⟩ := Option.bind_eq_some_iff.mp h
  obtain ⟨month, -, h⟩ := Option.bind_eq_some_iff.mp h
  obtain ⟨_, -, h⟩ := Option.bind_eq_some_iff.mp h
  obtain ⟨day, -, h⟩ := Option.bind_eq_some_iff.mp h
  dsimp only at h
  split at h
  · split at h
    · obtain ⟨_, -, h⟩ := Option.bind_eq_some_iff.mp h
      obtain ⟨hour, -, h⟩ := Option.bind_eq_some_iff.mp h
      obtain ⟨_, -, h⟩ := Option.bind_eq_some_iff.mp h
      obtain ⟨minute, -, h⟩ := Option.bind_eq_some_iff.mp h
      obtain ⟨_, -, h⟩ := Option.bind_eq_some_iff.mp h
      obtain ⟨second, -, h⟩ := Option.bind_eq_some_iff.mp h
      obtain ⟨fraction, hfraction, h⟩ := Option.bind_eq_some_iff.mp h
      obtain ⟨offset, hoffset, h⟩ := Option.bind_eq_some_iff.mp h
      split at h
      · cases h
      · obtain ⟨date, -, h⟩ := Option.bind_eq_some_iff.mp h
        obtain ⟨civil, hcivil, h⟩ := Option.bind_eq_some_iff.mp h
        cases h
        have hproper := proper_of_instant? hcivil (readFraction_lt hfraction)
        refine ⟨hproper.nanos, fun hleap => ?_⟩
        have hminute := hproper.leap hleap
        have hwhole := readOffset_mod hoffset
        dsimp only
        omega
    · cases h
  · cases h

theorem proper_of_readUniversal (h : readUniversal text = some t) : t.Proper := by
  obtain ⟨date, -, h⟩ := Option.bind_eq_some_iff.mp h
  obtain ⟨_, -, h⟩ := Option.bind_eq_some_iff.mp h
  obtain ⟨hour, -, h⟩ := Option.bind_eq_some_iff.mp h
  obtain ⟨_, -, h⟩ := Option.bind_eq_some_iff.mp h
  obtain ⟨minute, -, h⟩ := Option.bind_eq_some_iff.mp h
  obtain ⟨_, -, h⟩ := Option.bind_eq_some_iff.mp h
  obtain ⟨second, -, h⟩ := Option.bind_eq_some_iff.mp h
  obtain ⟨fraction, hfraction, h⟩ := Option.bind_eq_some_iff.mp h
  dsimp only at h
  split at h
  · cases h
  · exact proper_of_instant? h (readFraction_lt hfraction)

theorem proper_of_readMidnight (h : readMidnight text = some t) : t.Proper := by
  obtain ⟨date, -, h⟩ := Option.bind_eq_some_iff.mp h
  dsimp only at h
  split at h
  · cases h
  · exact proper_of_instant? h (by decide)

/-- **A time that is read** is one that the calendar has. -/
theorem proper_of_readInstant? {text : String} (h : readInstant? text = some t) : t.Proper := by
  simp only [readInstant?, Option.orElse_eq_or, Option.or_eq_some_iff] at h
  obtain h | ⟨-, h | ⟨-, h⟩⟩ := h
  · exact proper_of_readWithOffset h
  · exact proper_of_readUniversal h
  · exact proper_of_readMidnight h

/-! ### The mark of universal time -/

theorem mem_dropWhile {p : Char → Bool} (hp : p 'Z' = false) (hmark : 'Z' ∈ text) :
    'Z' ∈ text.dropWhile p := by
  rw [← List.takeWhile_append_dropWhile (p := p) (l := text)] at hmark
  refine (List.mem_append.mp hmark).resolve_left fun htaken => ?_
  rw [List.mem_takeWhile_imp htaken] at hp
  cases hp

theorem mem_of_readChar {c : Char} (h : readChar c text = some rest) (hc : c ≠ 'Z')
    (hmark : 'Z' ∈ text) : 'Z' ∈ rest := by
  unfold readChar at h
  split at h
  · split_ifs at h with hsame
    cases h
    exact (List.mem_cons.mp hmark).resolve_left fun hhead => hc (hsame.trans hhead.symm)
  · cases h

theorem mem_of_readNumber (h : readNumber least most text = some (n, rest)) (hmark : 'Z' ∈ text) :
    'Z' ∈ rest := by
  obtain ⟨digits, rfl, hdigits, -, -⟩ := readNumber_some h
  exact (List.mem_append.mp hmark).resolve_left fun hdigit => by cases hdigits _ hdigit

theorem mem_of_readField (h : readField text = some (n, rest)) (hmark : 'Z' ∈ text) :
    'Z' ∈ rest :=
  mem_of_readNumber h (mem_dropWhile rfl hmark)

theorem mem_of_readYear {year : Int} (h : readYear text = some (year, rest))
    (hmark : 'Z' ∈ text) : 'Z' ∈ rest := by
  have hbehind : 'Z' ∈ text.dropWhile Text.isBlank := mem_dropWhile rfl hmark
  unfold readYear at h
  split at h <;> obtain ⟨⟨n, behind⟩, hnumber, h⟩ := Option.map_eq_some_iff.mp h <;> cases h
  · next heq =>
    rw [heq] at hbehind
    exact mem_of_readNumber hnumber ((List.mem_cons.mp hbehind).resolve_left (by decide))
  · next heq =>
    rw [heq] at hbehind
    exact mem_of_readNumber hnumber ((List.mem_cons.mp hbehind).resolve_left (by decide))
  · exact mem_of_readNumber hnumber hbehind

theorem mem_of_readFraction (h : readFraction text = some (n, rest)) (hmark : 'Z' ∈ text) :
    'Z' ∈ rest := by
  unfold readFraction at h
  split at h
  · obtain ⟨⟨value, behind⟩, hvalue, h⟩ := Option.bind_eq_some_iff.mp h
    cases h
    have hrest := (List.mem_cons.mp hmark).resolve_left (by decide)
    exact mem_dropWhile rfl (mem_of_readNumber hvalue hrest)
  · cases h
    exact hmark

theorem mem_of_readDate {date : Date} (h : readDate text = some (date, rest))
    (hmark : 'Z' ∈ text) : 'Z' ∈ rest := by
  obtain ⟨year, hyear, h⟩ := Option.bind_eq_some_iff.mp h
  obtain ⟨_, hfirst, h⟩ := Option.bind_eq_some_iff.mp h
  obtain ⟨month, hmonth, h⟩ := Option.bind_eq_some_iff.mp h
  obtain ⟨_, hsecond, h⟩ := Option.bind_eq_some_iff.mp h
  obtain ⟨day, hday, h⟩ := Option.bind_eq_some_iff.mp h
  obtain ⟨_, -, h⟩ := Option.bind_eq_some_iff.mp h
  cases h
  have hmark := mem_of_readChar hfirst (by decide) (mem_of_readYear hyear hmark)
  have hmark := mem_of_readChar hsecond (by decide) (mem_of_readField hmonth hmark)
  exact mem_of_readField hday hmark

/-- No form but the first one takes the mark of universal time. -/
theorem readUniversal_of_mem (hmark : 'Z' ∈ text) : readUniversal text = none := by
  refine Option.eq_none_iff_forall_ne_some.mpr fun t h => ?_
  obtain ⟨date, hdate, h⟩ := Option.bind_eq_some_iff.mp h
  obtain ⟨_, hletter, h⟩ := Option.bind_eq_some_iff.mp h
  obtain ⟨hour, hhour, h⟩ := Option.bind_eq_some_iff.mp h
  obtain ⟨_, hfirst, h⟩ := Option.bind_eq_some_iff.mp h
  obtain ⟨minute, hminute, h⟩ := Option.bind_eq_some_iff.mp h
  obtain ⟨_, hsecond, h⟩ := Option.bind_eq_some_iff.mp h
  obtain ⟨second, hseconds, h⟩ := Option.bind_eq_some_iff.mp h
  obtain ⟨fraction, hfraction, h⟩ := Option.bind_eq_some_iff.mp h
  have hmark := mem_of_readChar hletter (by decide) (mem_of_readDate hdate hmark)
  have hmark := mem_of_readChar hfirst (by decide) (mem_of_readField hhour hmark)
  have hmark := mem_of_readChar hsecond (by decide) (mem_of_readField hminute hmark)
  have hmark := mem_of_readFraction hfraction (mem_of_readField hseconds hmark)
  dsimp only at h
  rw [if_pos (by simpa using List.ne_nil_of_mem hmark)] at h
  cases h

theorem readMidnight_of_mem (hmark : 'Z' ∈ text) : readMidnight text = none := by
  refine Option.eq_none_iff_forall_ne_some.mpr fun t h => ?_
  obtain ⟨date, hdate, h⟩ := Option.bind_eq_some_iff.mp h
  dsimp only at h
  rw [if_pos (by simpa using List.ne_nil_of_mem (mem_of_readDate hdate hmark))] at h
  cases h

/-- **A text with the mark of universal time** is read in the first form or not at all. -/
theorem readInstant?_of_mem {text : String} (hmark : 'Z' ∈ Text.trimChars text.toList) :
    readInstant? text = readWithOffset (Text.trimChars text.toList) := by
  unfold readInstant?
  simp only [readUniversal_of_mem hmark, readMidnight_of_mem hmark, Option.orElse_eq_or,
    Option.or_none]

/-! ### Reading numbers back -/

/-- **Digits up to what is no digit**, or as many as there may be, are read as their number. -/
theorem readNumber_digits (hdigits : ∀ c ∈ digits, isDigit c = true)
    (hleast : least ≤ digits.length) (hmost : digits.length ≤ most)
    (hend : digits.length = most ∨ ∀ c ∈ rest.head?, isDigit c = false)
    (hvalue : digitsValue digits ≤ numberLimit) :
    readNumber least most (digits ++ rest) = some (digitsValue digits, rest) := by
  have hrest : (rest.take (most - digits.length)).takeWhile isDigit = [] := by
    rcases hend with hlength | hend
    · rw [hlength, Nat.sub_self]
      rfl
    · cases rest with
      | nil => rw [List.take_nil, List.takeWhile_nil]
      | cons c rest =>
        cases most - digits.length with
        | zero => rfl
        | succ count => exact List.takeWhile_cons_of_neg (by simp [hend c rfl])
  have htaken : ((digits ++ rest).take most).takeWhile isDigit = digits := by
    rw [List.take_append, List.take_of_length_le hmost, List.takeWhile_append_of_pos hdigits,
      hrest, List.append_nil]
  unfold readNumber
  simp only [htaken]
  rw [if_neg (Nat.not_lt_of_le hleast), if_neg (Nat.not_lt_of_le hvalue), List.drop_left]

theorem digitsValue_padded (width n : Nat) : digitsValue (Text.padded width n).toList = n :=
  (digitsValue_eq _).trans (Text.ofDigitChars_padded width n)

/-- A padded number is read back. -/
theorem readNumber_padded (hwidth : 0 < width) (hn : n < 10 ^ width) (hlimit : n ≤ numberLimit)
    (rest : List Char) :
    readNumber width width ((Text.padded width n).toList ++ rest) = some (n, rest) := by
  have hlength : (Text.padded width n).toList.length = width :=
    String.length_toList.trans (Text.length_padded hwidth hn)
  have h : readNumber width width ((Text.padded width n).toList ++ rest) =
      some (digitsValue (Text.padded width n).toList, rest) :=
    readNumber_digits (fun c => Text.isDigit_of_mem_padded) hlength.ge hlength.le (Or.inl hlength)
      (by rwa [digitsValue_padded])
  rwa [digitsValue_padded] at h

/-- Milliseconds are read back as nanoseconds. -/
theorem readFraction_padded (hn : n < 1000) :
    readFraction ('.' :: ((Text.padded 3 n).toList ++ ['Z'])) = some (n * 1000000, ['Z']) := by
  have hlength : (Text.padded 3 n).toList.length = 3 :=
    String.length_toList.trans (Text.length_padded (by decide) hn)
  have h : readNumber 1 9 ((Text.padded 3 n).toList ++ ['Z']) =
      some (digitsValue (Text.padded 3 n).toList, ['Z']) :=
    readNumber_digits (fun c => Text.isDigit_of_mem_padded) (by omega) (by omega)
      (Or.inr fun c hc => by cases hc; rfl) (by rw [digitsValue_padded]; unfold numberLimit; omega)
  rw [digitsValue_padded] at h
  simp [readFraction, readNanos, h, hlength, isDigit]

end Calendar

end DocumentDb
