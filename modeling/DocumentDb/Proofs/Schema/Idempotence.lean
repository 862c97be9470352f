import DocumentDb.Proofs.Calendar.RoundTrip
import DocumentDb.Proofs.Schema.Casts
import DocumentDb.Schema.Compiler
import Mathlib

/-!
# Casting what was cast

A value that was cast is the same when it is cast once more, unless it is a time that the rules do
not allow in its stored form. A stored time has lost what was behind its milliseconds, so it may no
longer be later than a bound, and it is no text of a time any more if its year has not four digits.
-/

namespace DocumentDb

/-! ### Times in their stored form -/

theorem Instant.before_cut {t bound : Instant} (h : t.before bound = true) :
    t.cut.before bound = true := by
  have hle : t.nanos / 1000000 * 1000000 ≤ t.nanos := Nat.div_mul_le_self _ _
  simp only [Instant.before, Bool.or_eq_true, Bool.and_eq_true, decide_eq_true_eq,
    beq_iff_eq] at h ⊢
  exact h.imp id fun ⟨hseconds, hnanos⟩ => ⟨hseconds, lt_of_le_of_lt hle hnanos⟩

namespace Rules

variable {rules : Rules} {field : String} {kind : ScalarKind} {value built again : Value}

/-- The rules allow a time in its stored form too: it is read back, and it is later than the bound
without what was cut off. -/
structure AllowsStored (rules : Rules) (t : Instant) : Prop where
  year : t.FourDigit
  after : ∀ bound, rules.startsAfter = some bound → bound.before t.cut = true

/-- **A time is cast again** exactly if it is allowed in its stored form. -/
theorem casts_stored_iff {text : String} {t : Instant}
    (hread : Calendar.readInstant? text = some t) (hbounds : rules.AllowsTime t) :
    rules.Casts .date (.string t.text) again ↔ again = .string t.text ∧ rules.AllowsStored t := by
  have hproper := Calendar.proper_of_readInstant? hread
  have htext := Calendar.readInstant?_text hproper
  constructor
  · intro h
    -- Only that the text is read as `htext` says counts here, and not which text it is.
    generalize hstoredText : t.text = stored at h htext ⊢
    cases h with
    | date hstored hagain =>
      rw [htext] at hstored
      split_ifs at hstored with hyear
      cases hstored
      rw [Instant.text_cut, hstoredText]
      exact ⟨rfl, ⟨hyear.1, hyear.2, hproper.nanos⟩, hagain.after⟩
  · rintro ⟨rfl, hstored⟩
    rw [if_pos ⟨hstored.year.least, hstored.year.most⟩] at htext
    have h := Casts.date htext ⟨hstored.after, fun bound hbound =>
      Instant.before_cut (hbounds.before bound hbound)⟩
    rwa [Instant.text_cut] at h

/-! ### Texts -/

/-- **A text is changed once**: a text in the form that the rules ask for stays as it is. -/
theorem transform_transform (rules : Rules) (text : String) :
    rules.transform (rules.transform text) = rules.transform text := by
  unfold transform
  split_ifs
  · rw [Text.trim_lower_trim, Text.lower_lower]
  · rw [Text.trim_capitalize_trim, Text.capitalize_capitalize]
  · exact Text.trim_trim text
  · exact Text.lower_lower text
  · exact Text.capitalize_capitalize text
  · rfl

/-! ### Values -/

/-- What a value that was cast becomes, if it is allowed again. -/
theorem Casts.again_eq (h : rules.Casts kind value built) (hagain : rules.Casts kind built again) :
    again = built := by
  cases h with
  | date hread hbounds => exact ((casts_stored_iff hread hbounds).mp hagain).1
  | null => cases hagain <;> rfl
  | string =>
    cases hagain
    rw [transform_transform]
  | number => cases hagain; rfl
  | boolean => cases hagain; rfl
  | any => cases hagain <;> rfl

/-- **A value that was cast is allowed again**, or it is a time that is not allowed as it is
stored. -/
theorem Casts.again_iff (h : rules.Casts kind value built) : rules.Casts kind built built ↔
    ∀ text t, kind = .date → value = .string text → Calendar.readInstant? text = some t →
      rules.AllowsStored t := by
  cases h with
  | date hread hbounds =>
    rw [casts_stored_iff hread hbounds]
    constructor
    · rintro ⟨-, hstored⟩ _ t - ⟨⟩ ht
      rw [hread] at ht
      cases ht
      exact hstored
    · exact fun hstored => ⟨rfl, hstored _ _ rfl rfl hread⟩
  | null hrequired hchoices =>
    exact iff_of_true (.null hrequired hchoices) fun _ _ _ htext => by cases htext
  | @string text hlength hlisted hpattern =>
    have hsame := transform_transform rules text
    have hagain : rules.Casts .string (.string (rules.transform text))
        (.string (rules.transform (rules.transform text))) :=
      .string (by rwa [hsame]) (by rwa [hsame]) (by rwa [hsame])
    rw [hsame] at hagain
    exact iff_of_true hagain fun _ _ hkind => by cases hkind
  | number hbounds hlisted hpattern =>
    exact iff_of_true (.number hbounds hlisted hpattern) fun _ _ hkind => by cases hkind
  | boolean => exact iff_of_true .boolean fun _ _ hkind => by cases hkind
  | any hnull hchoices => exact iff_of_true (.any hnull hchoices) fun _ _ hkind => by cases hkind

theorem castField_some : rules.castField field kind (some value) = .ok (some built) ↔
    rules.Casts kind value built := by
  have hcast : rules.cast field kind value = .ok built ↔ rules.Casts kind value built := cast_ok_iff
  rw [castField, map_ok_iff, ← hcast]
  simp

end Rules

/-- **What was cast is cast to itself** or not at all, under any rules. It is cast to itself unless
it is a time that the rules do not allow in its stored form. -/
theorem cast_again {rules : Rules} {field : String} {kind : ScalarKind} {value built : Value}
    (h : rules.castField field kind (some value) = .ok (some built)) :
    (∀ again, rules.castField field kind (some built) = .ok (some again) → again = built) ∧
      (rules.castField field kind (some built) = .ok (some built) ↔
        ∀ text t, kind = .date → value = .string text → Calendar.readInstant? text = some t →
          rules.AllowsStored t) := by
  have hcasts := Rules.castField_some.mp h
  refine ⟨fun again hagain => hcasts.again_eq (Rules.castField_some.mp hagain), ?_⟩
  rw [Rules.castField_some]
  exact hcasts.again_iff

/-- The rules of a field for times behind the beginning of a year. -/
def newYearRules : Rules := { startsAfter := some ⟨1704067200, 0⟩ }

/-- A time of the next day is stored, and stored once more. -/
theorem nextDay_again : newYearRules.castField "seen" .date
      (some (.string "2024-01-02T00:00:00.0005Z")) =
        .ok (some (.string "2024-01-02T00:00:00.000Z")) ∧
    newYearRules.castField "seen" .date (some (.string "2024-01-02T00:00:00.000Z")) =
      .ok (some (.string "2024-01-02T00:00:00.000Z")) := by
  have hcast : newYearRules.castField "seen" .date
      (some (.string "2024-01-02T00:00:00.0005Z")) =
        .ok (some (.string "2024-01-02T00:00:00.000Z")) := rfl
  have hread : Calendar.readInstant? "2024-01-02T00:00:00.0005Z" =
      some ⟨1704153600, 500000⟩ := by decide
  refine ⟨hcast, (cast_again hcast).2.mpr ?_⟩
  rintro _ t - ⟨⟩ ht
  rw [hread] at ht
  cases ht
  refine ⟨⟨by decide, by decide, by decide⟩, ?_⟩
  rintro _ ⟨⟩
  decide

/-- **Half a millisecond after the new year** is a time that is stored, and the stored time is
refused. -/
theorem newYear_refused :
    Declaration.rules "seen" (.scalar .date)
      [("type", .string "Date"), ("startsAfter", .string "2024-01-01")] = .ok newYearRules ∧
    newYearRules.castField "seen" .date (some (.string "2024-01-01T00:00:00.0005Z")) =
      .ok (some (.string "2024-01-01T00:00:00.000Z")) ∧
    newYearRules.castField "seen" .date (some (.string "2024-01-01T00:00:00.000Z")) =
      .error (.violation "seen" (.notAfter ⟨1704067200, 0⟩ ⟨1704067200, 0⟩)) :=
  ⟨by cbv, rfl, rfl⟩

end DocumentDb
