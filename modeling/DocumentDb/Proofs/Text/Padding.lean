import DocumentDb.Numeric.Reader
import DocumentDb.Text.Blank
import DocumentDb.Text.Segment
import Mathlib.Data.String.Basic

/-!
# Digits and padded numbers

Digits have the value of a number of as many places. A padded number is a run of digits with the
value of the number, as long as its width if the number has no more digits.
-/

namespace DocumentDb

theorem toNat_of_isDigit {c : Char} (h : c.isDigit) : 48 ≤ c.toNat ∧ c.toNat ≤ 57 := by
  unfold Char.isDigit at h
  rw [Bool.and_eq_true, decide_eq_true_eq, decide_eq_true_eq] at h
  exact h

theorem isBlank_of_isDigit {c : Char} (h : c.isDigit) : Text.isBlank c = false := by
  have hrange := toNat_of_isDigit h
  simp [Text.isBlank]
  omega

/-- A digit takes one byte. -/
theorem utf8Size_of_isDigit {c : Char} (h : c.isDigit) : c.utf8Size = 1 := by
  rw [Char.utf8Size_eq_one_iff, UInt32.le_iff_toNat_le]
  exact Nat.le_trans (toNat_of_isDigit h).2 (by decide)

theorem isDigit_of_mem {n : Nat} {c : Char} (h : c ∈ Nat.toDigits 10 n) : c.isDigit :=
  Nat.isDigit_of_mem_toDigits (by decide) (by decide) h

section Digits
variable {digits : List Char}

theorem ofDigitChars_cons_zero (c : Char) (digits : List Char) :
    Nat.ofDigitChars 10 (c :: digits) 0 =
      10 ^ digits.length * digitValue c + Nat.ofDigitChars 10 digits 0 := by
  rw [Nat.ofDigitChars_cons, Nat.ofDigitChars_eq_ofDigitChars_zero, Nat.mul_zero, Nat.zero_add]
  rfl

theorem digitValue_lt {c : Char} (h : c.isDigit) : digitValue c < 10 := by
  have := toNat_of_isDigit h
  unfold digitValue
  omega

theorem ofDigitChars_lt (h : ∀ c ∈ digits, c.isDigit) :
    Nat.ofDigitChars 10 digits 0 < 10 ^ digits.length := by
  induction digits with
  | nil => simp
  | cons c digits ih =>
    have hc := digitValue_lt (h c List.mem_cons_self)
    have hrest := ih fun other hother => h other (List.mem_cons_of_mem _ hother)
    have hle : 10 ^ digits.length * digitValue c ≤ 10 ^ digits.length * 9 :=
      Nat.mul_le_mul_left _ (by omega)
    rw [ofDigitChars_cons_zero, List.length_cons, Nat.pow_succ]
    omega

theorem utf8Len_digits (h : ∀ c ∈ digits, c.isDigit) : String.utf8Len digits = digits.length := by
  induction digits with
  | nil => rfl
  | cons c digits ih =>
    obtain ⟨hc, hrest⟩ := List.forall_mem_cons.mp h
    rw [String.utf8Len_cons, utf8Size_of_isDigit hc, ih hrest, List.length_cons]

theorem digitValue_inj {c d : Char} (hc : c.isDigit) (hd : d.isDigit) :
    digitValue c = digitValue d ↔ c = d := by
  refine ⟨fun h => Char.toNat_inj.mp ?_, congrArg digitValue⟩
  have := toNat_of_isDigit hc
  have := toNat_of_isDigit hd
  unfold digitValue at h
  omega

/-- **Runs of digits of one length are in the order of their numbers**, and what follows them counts
only behind the same digits. -/
theorem digits_append_lt_iff {others rest tail : List Char}
    (hlength : digits.length = others.length)
    (hdigits : ∀ c ∈ digits, c.isDigit) (hothers : ∀ c ∈ others, c.isDigit) :
    digits ++ rest < others ++ tail ↔
      Nat.ofDigitChars 10 digits 0 < Nat.ofDigitChars 10 others 0 ∨
        Nat.ofDigitChars 10 digits 0 = Nat.ofDigitChars 10 others 0 ∧ rest < tail := by
  induction digits generalizing others with
  | nil =>
    obtain rfl := List.eq_nil_of_length_eq_zero hlength.symm
    simp
  | cons a digits ih =>
    obtain _ | ⟨b, others⟩ := others
    · cases hlength
    rw [List.length_cons, List.length_cons, Nat.succ_inj] at hlength
    obtain ⟨ha, hdigits⟩ := List.forall_mem_cons.mp hdigits
    obtain ⟨hb, hothers⟩ := List.forall_mem_cons.mp hothers
    have hless : a < b ↔ digitValue a < digitValue b := by
      have := toNat_of_isDigit ha
      have := toNat_of_isDigit hb
      unfold digitValue
      rw [show a < b ↔ a.toNat < b.toNat from Iff.rfl]
      omega
    -- the digits behind the first one weigh less than one more in the first one does
    have hrest := ofDigitChars_lt hdigits
    have htail := ofDigitChars_lt hothers
    rw [List.cons_append, List.cons_append, List.cons_lt_cons_iff, ih hlength hdigits hothers,
      hless, ← digitValue_inj ha hb, ofDigitChars_cons_zero, ofDigitChars_cons_zero, ← hlength]
    rw [← hlength] at htail
    rcases lt_trichotomy (digitValue a) (digitValue b) with hlt | heq | hgt
    · have hle := Nat.mul_le_mul_left (10 ^ digits.length) (Nat.succ_le_of_lt hlt)
      rw [Nat.mul_succ] at hle
      omega
    · simp [heq]
    · have hle := Nat.mul_le_mul_left (10 ^ digits.length) (Nat.succ_le_of_lt hgt)
      rw [Nat.mul_succ] at hle
      omega

/-- A number is read from digits as it is anywhere else. -/
theorem digitsValue_eq (digits : List Char) :
    digitsValue digits = Nat.ofDigitChars 10 digits 0 := by
  have hfold : ∀ n, digits.foldl (fun n c => n * 10 + digitValue c) n =
      Nat.ofDigitChars 10 digits n := by
    induction digits with
    | nil => exact fun n => rfl
    | cons c digits ih =>
      intro n
      rw [List.foldl_cons, ih, Nat.ofDigitChars_cons, Nat.mul_comm]
      rfl
  exact hfold 0

end Digits

namespace Text

variable {width n : Nat}

theorem toList_padded (width n : Nat) : (padded width n).toList =
    List.replicate (width - (Nat.toDigits 10 n).length) '0' ++ Nat.toDigits 10 n := by
  have hdigits : toString n = String.ofList (Nat.toDigits 10 n) := Nat.toString_eq_ofList_toDigits
  rw [padded, hdigits, String.toList_append, String.toList_ofList, String.toList_ofList,
    String.length_ofList]

theorem isDigit_of_mem_padded {c : Char} (h : c ∈ (padded width n).toList) : c.isDigit := by
  rw [toList_padded] at h
  rcases List.mem_append.mp h with hzero | hdigit
  · rw [List.eq_of_mem_replicate hzero]
    rfl
  · exact isDigit_of_mem hdigit

/-- Padding does not change the value. -/
theorem ofDigitChars_padded (width n : Nat) :
    Nat.ofDigitChars 10 (padded width n).toList 0 = n := by
  rw [toList_padded, Nat.ofDigitChars_append, Nat.ofDigitChars_replicate_zero, Nat.mul_zero]
  exact Nat.ofDigitChars_ten_toDigits

theorem le_length_padded (width n : Nat) : width ≤ (padded width n).length := by
  rw [← String.length_toList, toList_padded, List.length_append, List.length_replicate]
  omega

/-- **A padded number is as long as its width** if it has no more digits. -/
theorem length_padded (hwidth : 0 < width) (h : n < 10 ^ width) :
    (padded width n).length = width := by
  have hdigits := (Nat.length_toDigits_le_iff (b := 10) (by decide) hwidth).mpr h
  rw [← String.length_toList, toList_padded, List.length_append, List.length_replicate]
  omega

/-- **Padded numbers of one width are in the order of the numbers.** -/
theorem padded_append_lt_iff {other : Nat} {rest tail : List Char} (hwidth : 0 < width)
    (h : n < 10 ^ width) (hother : other < 10 ^ width) :
    (padded width n).toList ++ rest < (padded width other).toList ++ tail ↔
      n < other ∨ n = other ∧ rest < tail := by
  have hlength : (padded width n).toList.length = (padded width other).toList.length := by
    rw [String.length_toList, String.length_toList, length_padded hwidth h,
      length_padded hwidth hother]
  rw [digits_append_lt_iff hlength (fun _ => isDigit_of_mem_padded)
    (fun _ => isDigit_of_mem_padded), ofDigitChars_padded, ofDigitChars_padded]

end Text

end DocumentDb
