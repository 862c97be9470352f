import DocumentDb.Text.Blank
import DocumentDb.Text.Case
import Mathlib.Tactic.Common

/-!
# What the case mappings lead to

A case mapping leads to no character that it would move on, and to no blank. Whether one run ever
leads into another is seen from the ends of both, so that the tables are checked run by run and not
character by character.
-/

namespace DocumentDb.Text

/-! ### Runs -/

namespace CaseRun

variable {run other : CaseRun} {n : Nat}

/-- The code point that the run moves a code point to. -/
def image (run : CaseRun) (n : Nat) : Nat := (n + run.shift).toNat

/-- The run that keeps a single code point where it is. -/
def point (n : Nat) : CaseRun := ⟨n, n, 1, 0⟩

/-- Whether the code points of the run are moved to characters. -/
def proper (run : CaseRun) : Bool :=
  0 ≤ run.first + run.shift && (Nat.blt (run.image run.last) 0xD800 ||
    (Nat.blt 0xDFFF (run.image run.first) && Nat.blt (run.image run.last) 0x110000))

/-- Whether the run plainly leads to no code point of another one: all images are below it or above
it, or they have another parity than its code points. -/
def misses (run other : CaseRun) : Bool :=
  -- Comparisons as Booleans: the check of a table computes tens of thousands of them.
  Nat.blt (run.image run.last) other.first || Nat.blt other.last (run.image run.first) ||
    (Nat.beq other.step 2 && (Nat.beq run.step 2 || Nat.beq run.first run.last) &&
      Nat.beq ((run.image run.first + other.first) % 2) 1)

theorem covers_iff : run.covers n = true ↔
    run.first ≤ n ∧ n ≤ run.last ∧ (n - run.first) % run.step = 0 := by
  simp [covers, and_assoc]

theorem covers_step_one {first last : Nat} {shift : Int} :
    (CaseRun.mk first last 1 shift).covers n = (decide (first ≤ n) && decide (n ≤ last)) := by
  simp [covers, Nat.mod_one]

theorem covers_point {m : Nat} : (point m).covers n = (n == m) := by
  rw [point, covers_step_one, Bool.eq_iff_iff]
  simp only [Bool.and_eq_true, decide_eq_true_eq, beq_iff_eq]
  omega

/-- The images of a run are in the order of its code points. -/
theorem image_bounds (h : run.covers n = true) :
    run.image run.first ≤ run.image n ∧ run.image n ≤ run.image run.last := by
  obtain ⟨hfirst, hlast, -⟩ := covers_iff.mp h
  unfold image
  omega

theorem isValidChar_image (hproper : run.proper = true) (h : run.covers n = true) :
    (run.image n).isValidChar := by
  have hbounds := image_bounds h
  simp only [proper, Bool.and_eq_true, Bool.or_eq_true, decide_eq_true_eq, Nat.blt_eq] at hproper
  unfold Nat.isValidChar
  omega

/-- **A run that misses another one** leads to none of its code points. -/
theorem covers_image (hproper : run.proper = true) (hmisses : run.misses other = true)
    (h : run.covers n = true) : other.covers (run.image n) = false := by
  have hbounds := image_bounds h
  obtain ⟨hfirst, hlast, hstep⟩ := covers_iff.mp h
  simp only [proper, Bool.and_eq_true, decide_eq_true_eq] at hproper
  rw [Bool.eq_false_iff, Ne, covers_iff]
  rintro ⟨hleast, hmost, hother⟩
  simp only [misses, Bool.or_eq_true, Bool.and_eq_true, Nat.blt_eq, Nat.beq_eq] at hmisses
  rcases hmisses with (hbelow | habove) | ⟨⟨hother2, hrun⟩, hparity⟩
  · omega
  · omega
  · rw [hother2] at hother
    have hsame : n % 2 = run.first % 2 := by
      rcases hrun with hrun | hrun
      · rw [hrun] at hstep
        omega
      · omega
    unfold image at hparity hother hleast
    omega

end CaseRun

/-! ### Characters that are not moved -/

/-- The character is at none of the runs. -/
def Clear (runs : List CaseRun) (c : Char) : Prop := ∀ run ∈ runs, run.covers c.toNat = false

/-- Whether a mapping leads to characters that are at none of the other runs. -/
def leadsClear (runs others : List CaseRun) : Bool :=
  runs.all fun run => run.proper && others.all run.misses

variable {runs others : List CaseRun} {c d : Char}

instance (runs : List CaseRun) (c : Char) : Decidable (Clear runs c) := List.decidableBAll _ _

theorem Clear.moved (h : Clear runs c) : moved runs c = c := by
  have hnone : runs.find? (·.covers c.toNat) = none :=
    List.find?_eq_none.mpr fun run hrun => by simp [h run hrun]
  rw [Text.moved, hnone]

/-- **Where a mapping leads**, if it does not leave the character as it is. -/
theorem moved_clear (htable : leadsClear runs others = true) (c : Char) :
    moved runs c = c ∧ Clear runs c ∨ Clear others (moved runs c) := by
  cases hfind : runs.find? (·.covers c.toNat) with
  | none =>
    refine Or.inl ⟨by rw [moved, hfind], fun run hrun => ?_⟩
    simpa using List.find?_eq_none.mp hfind run hrun
  | some run =>
    have hrun := List.mem_of_find?_eq_some hfind
    have hcovers : run.covers c.toNat = true := by simpa using List.find?_some hfind
    obtain ⟨hproper, hmisses⟩ := Bool.and_eq_true_iff.mp (List.all_eq_true.mp htable run hrun)
    have hmoved : moved runs c = Char.ofNat (run.image c.toNat) := by
      rw [moved, hfind]
      rfl
    have hvalid := CaseRun.isValidChar_image hproper hcovers
    refine Or.inr fun other hother => ?_
    rw [hmoved, Char.ofNat, dif_pos hvalid]
    exact CaseRun.covers_image hproper (List.all_eq_true.mp hmisses other hother) hcovers

/-! ### The tables -/

/-- The blanks as runs. -/
def blankRuns : List CaseRun :=
  [⟨9, 13, 1, 0⟩, .point 32, .point 0x85, .point 0xA0, .point 0x1680, ⟨0x2000, 0x200A, 1, 0⟩,
    .point 0x2028, .point 0x2029, .point 0x202F, .point 0x205F, .point 0x3000]

theorem isBlank_eq (c : Char) : isBlank c = blankRuns.any (·.covers c.toNat) := by
  simp [isBlank, blankRuns, CaseRun.covers_point, CaseRun.covers_step_one, Bool.or_assoc]

theorem Clear.not_isBlank (h : Clear blankRuns c) : isBlank c = false := by
  rw [isBlank_eq, List.any_eq_false]
  exact fun run hrun => by simp [h run hrun]

/-- The characters that have small letters other than themselves, and the blanks. -/
def largeRuns : List CaseRun := .point 0x130 :: (blankRuns ++ smallLetterRuns)

/-- The characters that have capitals other than themselves, and the blanks. -/
def smallRuns : List CaseRun := longCapitals.map (.point ·.1) ++ (blankRuns ++ capitalRuns)

set_option maxRecDepth 10000 in
theorem smallLetterRuns_leadsClear : leadsClear smallLetterRuns largeRuns = true := by
  decide +kernel

set_option maxRecDepth 10000 in
theorem capitalRuns_leadsClear : leadsClear capitalRuns smallRuns = true := by
  decide +kernel

set_option maxRecDepth 10000 in
theorem longCapitals_clear : ∀ entry ∈ longCapitals, entry.2 ≠ [] ∧
    (∀ n ∈ entry.2, isBlank (Char.ofNat n) = false) ∧
      ∀ n ∈ entry.2.head?, Clear smallRuns (Char.ofNat n) := by
  decide +kernel

theorem Clear.smallLetter (h : Clear largeRuns c) : smallLetter c = [c] := by
  have hdot : c ≠ '\u0130' := by
    rintro rfl
    exact absurd (h _ List.mem_cons_self) (by decide)
  have hruns : Clear smallLetterRuns c := fun run hrun =>
    h run (List.mem_cons_of_mem _ (List.mem_append_right _ hrun))
  rw [Text.smallLetter, if_neg hdot, hruns.moved]

theorem Clear.capital (h : Clear smallRuns c) : capital c = [c] := by
  have hlong : longCapitals.find? (·.1 == c.toNat) = none := by
    refine List.find?_eq_none.mpr fun entry hentry heq => ?_
    have hpoint := h _ (List.mem_append_left _ (List.mem_map_of_mem hentry))
    rw [CaseRun.covers_point, ← beq_iff_eq.mp heq, beq_self_eq_true] at hpoint
    cases hpoint
  have hruns : Clear capitalRuns c := fun run hrun =>
    h run (List.mem_append_right _ (List.mem_append_right _ hrun))
  rw [Text.capital, hlong, hruns.moved]

/-! ### Letters of letters -/

/-- **The small letters of a character** are their own small letters, and blank only if it is. -/
theorem mem_smallLetter (hd : d ∈ smallLetter c) :
    smallLetter d = [d] ∧ (isBlank c = false → isBlank d = false) := by
  unfold smallLetter at hd
  split_ifs at hd with hdot
  · simp only [List.mem_cons, List.not_mem_nil, or_false] at hd
    rcases hd with rfl | rfl
    · exact ⟨by decide, fun _ => by decide⟩
    · exact ⟨by decide, fun _ => by decide⟩
  · obtain rfl := List.mem_singleton.mp hd
    rcases moved_clear smallLetterRuns_leadsClear c with ⟨hsame, hclear⟩ | hclear
    · refine ⟨?_, fun hblank => by rwa [hsame]⟩
      rw [hsame, smallLetter, if_neg hdot, hclear.moved]
    · exact ⟨hclear.smallLetter, fun _ => Clear.not_isBlank fun run hrun =>
        hclear run (List.mem_cons_of_mem _ (List.mem_append_left _ hrun))⟩

theorem smallLetter_ne_nil (c : Char) : smallLetter c ≠ [] := by
  unfold smallLetter
  split_ifs <;> exact List.cons_ne_nil _ _

/-- A character has capitals in its entry, or else a single one. -/
theorem capital_cases (c : Char) :
    (∃ entry ∈ longCapitals, capital c = entry.2.map Char.ofNat) ∨
      capital c = [c] ∨ ∃ d, capital c = [d] ∧ Clear smallRuns d := by
  cases hfind : longCapitals.find? (·.1 == c.toNat) with
  | some entry =>
    exact Or.inl ⟨entry, List.mem_of_find?_eq_some hfind, by rw [capital, hfind]⟩
  | none =>
    have hcapital : capital c = [moved capitalRuns c] := by rw [capital, hfind]
    rcases moved_clear capitalRuns_leadsClear c with ⟨hsame, -⟩ | hclear
    · exact Or.inr (Or.inl (by rw [hcapital, hsame]))
    · exact Or.inr (Or.inr ⟨_, hcapital, hclear⟩)

theorem capital_ne_nil (c : Char) : capital c ≠ [] := by
  rcases capital_cases c with ⟨entry, hentry, hcapital⟩ | hcapital | ⟨d, hcapital, -⟩
  · rw [hcapital, Ne, List.map_eq_nil_iff]
    exact (longCapitals_clear entry hentry).1
  · rw [hcapital]
    exact List.cons_ne_nil _ _
  · rw [hcapital]
    exact List.cons_ne_nil _ _

theorem not_isBlank_capital (h : isBlank c = false) (hd : d ∈ capital c) : isBlank d = false := by
  rcases capital_cases c with ⟨entry, hentry, hcapital⟩ | hcapital | ⟨e, hcapital, hclear⟩
  · rw [hcapital] at hd
    obtain ⟨n, hn, rfl⟩ := List.mem_map.mp hd
    exact (longCapitals_clear entry hentry).2.1 n hn
  · rw [hcapital, List.mem_singleton] at hd
    rwa [hd]
  · rw [hcapital, List.mem_singleton] at hd
    rw [hd]
    exact Clear.not_isBlank fun run hrun =>
      hclear run (List.mem_append_right _ (List.mem_append_left _ hrun))

/-- **The first capital of a character** is its own capital. -/
theorem capital_head (hd : d ∈ (capital c).head?) : capital d = [d] := by
  rcases capital_cases c with ⟨entry, hentry, hcapital⟩ | hcapital | ⟨e, hcapital, hclear⟩
  · rw [hcapital, List.head?_map, Option.mem_def, Option.map_eq_some_iff] at hd
    obtain ⟨n, hn, rfl⟩ := hd
    exact ((longCapitals_clear entry hentry).2.2 n hn).capital
  · have hsame := hcapital
    rw [hcapital, List.head?_cons, Option.mem_def, Option.some.injEq] at hd
    rwa [← hd]
  · rw [hcapital, List.head?_cons, Option.mem_def, Option.some.injEq] at hd
    rw [← hd]
    exact hclear.capital

end DocumentDb.Text
