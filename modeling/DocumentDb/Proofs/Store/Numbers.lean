import DocumentDb.Proofs.Store.Shards
import DocumentDb.Proofs.Text.Padding

/-!
# Numbers in files

A number of at most 64 bits is read from its decimal digits as it was written. So is the counter of
a collection, and the names of shards, whose numbers are filled up to four digits, are in the order
of the numbers as long as four digits are enough.
-/

namespace DocumentDb

open Json

/-! ### Decimal numbers -/

section Digits
variable {digits : List Char}

theorem le_ofDigitChars (start : Nat) : start ≤ Nat.ofDigitChars 10 digits start := by
  rw [Nat.ofDigitChars_eq_ofDigitChars_zero]
  exact le_trans (Nat.le_mul_of_pos_left start (Nat.pow_pos (by decide))) (Nat.le_add_right _ _)

/-- Digits that fit are taken up to what is no digit. -/
theorem takeDigits_append {rest : List Char} {start : Nat} (h : ∀ c ∈ digits, c.isDigit)
    (hrest : ∀ c ∈ rest.head?, isDigit c = false)
    (hfit : Nat.ofDigitChars 10 digits start < wordBound) :
    takeDigits start (digits ++ rest) = (Nat.ofDigitChars 10 digits start, rest) := by
  induction digits generalizing start with
  | nil =>
    cases rest with
    | nil => rfl
    | cons c rest => simp [takeDigits, hrest c rfl]
  | cons c digits ih =>
    have hdigit : isDigit c := h c List.mem_cons_self
    have hstep : 10 * start + (c.toNat - '0'.toNat) = start * 10 + digitValue c := by
      rw [Nat.mul_comm]; rfl
    rw [Nat.ofDigitChars_cons, hstep] at hfit ⊢
    have hsmall := lt_of_le_of_lt (le_ofDigitChars _) hfit
    rw [List.cons_append, takeDigits, if_pos (by simp [hdigit, hsmall])]
    exact ih (fun other hother => h other (List.mem_cons_of_mem _ hother)) hfit

/-- A decimal number begins with a zero only if it is zero. -/
theorem toDigits_of_zero {n : Nat} (h : Nat.toDigits 10 n = '0' :: digits) : digits = [] := by
  have hdigits : ∀ c ∈ digits, c.isDigit := fun c hc =>
    Nat.isDigit_of_mem_toDigits (b := 10) (n := n) (by decide) (by decide)
      (by rw [h]; exact List.mem_cons_of_mem _ hc)
  by_contra hne
  have hn : Nat.ofDigitChars 10 ('0' :: digits) 0 = n := by
    rw [← h]; exact Nat.ofDigitChars_ten_toDigits
  rw [ofDigitChars_cons_zero, show digitValue '0' = 0 from rfl, Nat.mul_zero, Nat.zero_add] at hn
  have hlt := ofDigitChars_lt hdigits
  rw [hn] at hlt
  have hle := (Nat.length_toDigits_le_iff (b := 10) (by decide)
    (List.length_pos_of_ne_nil hne)).mpr hlt
  rw [h, List.length_cons] at hle
  omega

/-- A character that no number goes on with. -/
def EndsNumber (c : Char) : Prop := isDigit c = false ∧ c ≠ '.' ∧ c ≠ 'e' ∧ c ≠ 'E'

instance (c : Char) : Decidable (EndsNumber c) :=
  inferInstanceAs (Decidable (_ ∧ _))

section Reading
variable {n : Nat} {stop : Char} (hn : n < wordBound) (hstop : EndsNumber stop) (rest : List Char)
include hn hstop

/-- The digits of a number are its whole part. -/
theorem wholePart_toDigits :
    wholePart (Nat.toDigits 10 n ++ stop :: rest) = some (n, stop :: rest) := by
  obtain ⟨c, digits, hdigits⟩ := List.exists_cons_of_ne_nil (Nat.toDigits_ne_nil (n := n) (b := 10))
  have hall : ∀ other ∈ c :: digits, isDigit other := fun other hother =>
    isDigit_of_mem (hdigits ▸ hother)
  have hvalue : Nat.ofDigitChars 10 digits (digitValue c) = n := by
    have h := Nat.ofDigitChars_ten_toDigits (n := n)
    rw [hdigits, Nat.ofDigitChars_cons, Nat.mul_zero, Nat.zero_add] at h
    exact h
  rw [hdigits, List.cons_append]
  unfold wholePart
  split
  · next heq =>
    cases heq
    obtain rfl := toDigits_of_zero hdigits
    rw [← hvalue]
    simp [hstop.1, digitValue]
  · next heq =>
    cases heq
    rw [if_pos (hall c List.mem_cons_self), takeDigits_append
      (fun other hother => hall other (List.mem_cons_of_mem _ hother)) (by simp [hstop.1])
      (hvalue.trans_lt hn), hvalue]
  · next heq => cases heq

/-- A number is read from its digits up to a character that ends it. -/
theorem readNumber_toDigits :
    readNumber (Nat.toDigits 10 n ++ stop :: rest) = some (.int n, stop :: rest) := by
  have hmagnitude : readMagnitude false (Nat.toDigits 10 n ++ stop :: rest) =
      some (.int n, stop :: rest) := by
    obtain ⟨hdigit, hpoint, he, hE⟩ := hstop
    rw [readMagnitude_eq]
    simp [wholePart_toDigits hn ⟨hdigit, hpoint, he, hE⟩, behindWhole, behindRun, hdigit, he, hE,
      readMagnitude.integer]
  unfold readNumber
  split
  · next tail heq =>
    obtain ⟨c, digits, hdigits⟩ :=
      List.exists_cons_of_ne_nil (Nat.toDigits_ne_nil (n := n) (b := 10))
    have hc : isDigit c := isDigit_of_mem (n := n) (hdigits ▸ List.mem_cons_self)
    rw [hdigits] at heq
    cases heq
    cases hc
  · exact hmagnitude

/-- A number is read as a value, blanks before it passed over. -/
theorem readValue_toDigits (blanks : List Char) (hblanks : ∀ c ∈ blanks, isSpace c = true)
    (fuel depth : Nat) :
    readValue (fuel + 1) depth (blanks ++ (Nat.toDigits 10 n ++ stop :: rest)) =
      some (.number (.int n), stop :: rest) := by
  have hnumber := readNumber_toDigits hn hstop rest
  obtain ⟨c, digits, hdigits⟩ :=
    List.exists_cons_of_ne_nil (Nat.toDigits_ne_nil (n := n) (b := 10))
  have hc : isDigit c := isDigit_of_mem (n := n) (hdigits ▸ List.mem_cons_self)
  have hne : ∀ other, isDigit other = false → c ≠ other := by
    rintro other hother rfl
    rw [hc] at hother
    cases hother
  have hskip :
      skipSpace (blanks ++ (c :: digits ++ stop :: rest)) = c :: digits ++ stop :: rest := by
    have hspace : isSpace c = false := by
      simp [isSpace, hne ' ' rfl, hne '\n' rfl, hne '\t' rfl, hne '\r' rfl]
    rw [skipSpace, List.dropWhile_append_of_pos hblanks, List.cons_append,
      List.dropWhile_cons_of_neg (by simp [hspace])]
  rw [hdigits] at hnumber ⊢
  rw [readValue_eq, hskip, List.cons_append, readToken, ← List.cons_append, hnumber]
  · rfl
  · exact List.cons_ne_nil _ _
  all_goals
    rintro _ ⟨⟩
    cases hc

end Reading

theorem toList_text_int (n : Nat) : (Number.int n).text.toList = Nat.toDigits 10 n := by
  rw [Number.text, show toString (n : Int) = n.repr from rfl, Nat.repr_eq_ofList_toDigits,
    String.toList_ofList]

end Digits

/-! ### Counters -/

namespace Counter

/-- The text of a counter around its digits. -/
theorem toList_text (count : Nat) :
    (text count).toList = ['\x7b', '\n', ' ', ' ', '"'] ++ (key.toList ++ ['"'] ++
      ':' :: ' ' :: (Nat.toDigits 10 count ++ ['\n', '\x7d'])) := by
  have hkey : quoted key = "\"" ++ key ++ "\"" := by decide
  simp [text, Value.pretty, Value.prettyAt, Value.prettyFields, Value.newLine, Value.ofNat,
    toList_text_int, hkey, List.replicate]

/-- **A counter is read as it was written**, if it fits 64 bits. -/
theorem read_text {count : Nat} (hcount : count < wordBound) : read (text count) = .ok count := by
  have hkey : readString 9 [] (key.toList ++ ['"']) = some (key, []) := by decide
  obtain ⟨name, hname, hstring⟩ := readString_closed hkey
  rw [List.append_nil] at hname
  have hfields : ∀ fuel, readFields (fuel + 2) (depthLimit - 1) []
      ('"' :: (key.toList ++ ['"'] ++ ':' :: ' ' :: (Nat.toDigits 10 count ++ ['\n', '\x7d']))) =
        some (.object [(key, .ofNat count)], []) := by
    intro fuel
    rw [hname]
    exact readFields_eq.mpr ⟨_, key, _, _, _, _, rfl, hstring _ _ (by simp; omega), rfl,
      readValue_toDigits hcount (by decide) ['\x7d'] [' ']
        (List.forall_mem_singleton.mpr rfl) fuel _, rfl⟩
  have hrepeated : readRepeated? (text count) = some (.object [(key, .ofNat count)]) := by
    refine readRepeated?_eq_some.mpr ⟨[], ?_, rfl⟩
    rw [toList_text, readValue_eq]
    exact hfields _
  unfold read
  rw [hrepeated]
  rfl

end Counter

/-! ### Names of shards -/

namespace Shard

/-- The digits in the name of a shard. -/
def digits (index : Nat) : List Char := (Text.padded 4 index).toList

theorem toList_fileName (index : Nat) :
    (fileName index).toList = "shard-".toList ++ (digits index ++ ".json".toList) := by
  simp [fileName, digits]

theorem ofDigitChars_digits (index : Nat) : Nat.ofDigitChars 10 (digits index) 0 = index :=
  Text.ofDigitChars_padded 4 index

theorem fileName_inj {i j : Nat} (h : fileName i = fileName j) : i = j := by
  have hlist := congrArg String.toList h
  rw [toList_fileName, toList_fileName] at hlist
  have hdigits := List.append_cancel_right (List.append_cancel_left hlist)
  rw [← ofDigitChars_digits i, ← ofDigitChars_digits j, hdigits]

/-- How many shards can be told apart by four digits. -/
def countMax : Nat := 10000

/-- **The names of shards are in the order of their numbers.** -/
theorem fileName_lt {i j : Nat} (h : i < j) (hj : j < countMax) : fileName i < fileName j := by
  rw [String.lt_iff_toList_lt, toList_fileName, toList_fileName]
  exact List.append_left_lt ((Text.padded_append_lt_iff (by decide) (h.trans hj) hj).mpr (Or.inl h))

end Shard

end DocumentDb
