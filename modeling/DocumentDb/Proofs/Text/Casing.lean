import DocumentDb.Proofs.Text.CaseTables
import Mathlib.Data.List.DropRight
import Mathlib.Data.String.Basic

/-!
# Texts that are changed once

Cutting off blanks, putting a text in small letters and giving it a capital at its start change a
text only once. Neither of the last two brings blanks to the ends of a text, so that a text that was
cut before is not cut again.
-/

namespace DocumentDb.Text

variable {text before rest : List Char} {c d : Char}

/-! ### Ends -/

/-- Neither the first nor the last character is a blank. -/
structure Trimmed (text : List Char) : Prop where
  first : ∀ c ∈ text.head?, isBlank c = false
  last : ∀ c ∈ text.getLast?, isBlank c = false

theorem trimEndChars_eq (text : List Char) : trimEndChars text = text.rdropWhile isBlank := rfl

theorem trimmed_trimChars (text : List Char) : Trimmed (trimChars text) := by
  rw [trimChars, trimEndChars_eq]
  refine ⟨fun c hc => ?_, fun c hc => ?_⟩
  · have hfirst : (text.dropWhile isBlank).head? = some c := by
      obtain ⟨behind, hbehind⟩ := List.rdropWhile_prefix isBlank (text.dropWhile isBlank)
      rw [← hbehind, List.head?_append, hc, Option.some_or]
    have hnot := List.head?_dropWhile_not isBlank text
    rw [hfirst] at hnot
    exact hnot
  · obtain ⟨hne, rfl⟩ := List.mem_getLast?_eq_getLast hc
    exact Bool.eq_false_iff.mpr (List.rdropWhile_last_not isBlank _ hne)

/-- **A text without blanks at its ends** is not cut. -/
theorem Trimmed.trimChars (h : Trimmed text) : trimChars text = text := by
  have hfirst : text.dropWhile isBlank = text := by
    cases text with
    | nil => rfl
    | cons c rest =>
      exact List.dropWhile_cons_of_neg (Bool.eq_false_iff.mp (h.first c rfl))
  rw [Text.trimChars, hfirst, trimEndChars_eq, List.rdropWhile_eq_self_iff]
  exact fun hne => Bool.eq_false_iff.mp (h.last _ (List.getLast?_eq_getLast_of_ne_nil hne))

theorem trim_trim (text : String) : trim (trim text) = trim text := by
  rw [trim, trim, String.toList_ofList, (trimmed_trimChars _).trimChars]

/-! ### Small letters -/

/-- What stands for one character of a text in small letters. -/
def smallAt (before : List Char) (c : Char) (rest : List Char) : List Char :=
  if c = 'Σ' then (if nextIsCased before && !nextIsCased rest then ['ς'] else ['σ'])
  else smallLetter c

theorem lowerFrom_cons : lowerFrom before (c :: rest) =
    smallAt before c rest ++ lowerFrom (c :: before) rest := rfl

theorem smallAt_ne_nil : smallAt before c rest ≠ [] := by
  unfold smallAt
  split_ifs
  · exact List.cons_ne_nil _ _
  · exact List.cons_ne_nil _ _
  · exact smallLetter_ne_nil c

theorem mem_smallAt (hd : d ∈ smallAt before c rest) :
    smallLetter d = [d] ∧ (isBlank c = false → isBlank d = false) := by
  unfold smallAt at hd
  split_ifs at hd
  · obtain rfl := List.mem_singleton.mp hd
    exact ⟨by decide, fun _ => by decide⟩
  · obtain rfl := List.mem_singleton.mp hd
    exact ⟨by decide, fun _ => by decide⟩
  · exact mem_smallLetter hd

theorem mem_lowerFrom (hd : d ∈ lowerFrom before text) : smallLetter d = [d] := by
  induction text generalizing before with
  | nil => cases hd
  | cons c rest ih =>
    rw [lowerFrom_cons] at hd
    exact (List.mem_append.mp hd).elim (fun h => (mem_smallAt h).1) ih

/-- A text of small letters stays as it is. -/
theorem lowerFrom_eq_self (h : ∀ d ∈ text, smallLetter d = [d]) : lowerFrom before text = text := by
  induction text generalizing before with
  | nil => rfl
  | cons c rest ih =>
    obtain ⟨hc, hrest⟩ := List.forall_mem_cons.mp h
    have hsigma : c ≠ 'Σ' := by
      rintro rfl
      exact absurd hc (by decide)
    rw [lowerFrom_cons, smallAt, if_neg hsigma, hc, ih hrest, List.singleton_append]

theorem lower_lower (text : String) : lower (lower text) = lower text := by
  rw [lower, lower, String.toList_ofList, lowerFrom_eq_self fun d => mem_lowerFrom]

theorem lowerFrom_ne_nil (h : text ≠ []) : lowerFrom before text ≠ [] := by
  obtain ⟨c, rest, rfl⟩ := List.exists_cons_of_ne_nil h
  rw [lowerFrom_cons]
  exact List.append_ne_nil_of_left_ne_nil smallAt_ne_nil _

theorem Trimmed.lowerFrom (h : Trimmed text) : Trimmed (lowerFrom before text) := by
  refine ⟨?_, ?_⟩
  · cases text with
    | nil => exact h.first
    | cons c rest =>
      intro d hd
      rw [lowerFrom_cons, List.head?_append_of_ne_nil _ smallAt_ne_nil] at hd
      exact (mem_smallAt (List.mem_of_mem_head? hd)).2 (h.first c rfl)
  · -- The first character is no part of what is claimed of the rest, so only the end is kept.
    have hlast := h.last
    clear h
    induction text generalizing before with
    | nil => exact hlast
    | cons c rest ih =>
      rw [lowerFrom_cons]
      rcases eq_or_ne rest [] with rfl | hne
      · intro d hd
        rw [Text.lowerFrom, List.append_nil] at hd
        exact (mem_smallAt (List.mem_of_mem_getLast? hd)).2 (hlast c rfl)
      · rw [List.getLast?_append_of_ne_nil _ (lowerFrom_ne_nil hne)]
        refine ih fun d hd => hlast d ?_
        rwa [List.getLast?_cons_of_ne_nil hne]

theorem trim_lower_trim (text : String) : trim (lower (trim text)) = lower (trim text) := by
  have h : Trimmed (lowerFrom [] (trimChars text.toList)) := (trimmed_trimChars _).lowerFrom
  rw [trim, lower, trim, String.toList_ofList, String.toList_ofList, h.trimChars]

/-! ### Capitals -/

/-- The characters of a text with a capital at its start. -/
def capitalizeChars : List Char → List Char
  | [] => []
  | c :: rest => capital c ++ rest

theorem toList_capitalize (text : String) :
    (capitalize text).toList = capitalizeChars text.toList := by
  unfold capitalize
  cases htext : text.toList with
  | nil => exact htext
  | cons c rest => exact String.toList_ofList

theorem capitalizeChars_capitalizeChars (text : List Char) :
    capitalizeChars (capitalizeChars text) = capitalizeChars text := by
  cases text with
  | nil => rfl
  | cons c rest =>
    obtain ⟨d, others, hcapital⟩ := List.exists_cons_of_ne_nil (capital_ne_nil c)
    have hd : capital d = [d] := capital_head (by rw [hcapital]; rfl)
    simp only [capitalizeChars, hcapital, List.cons_append, hd, List.nil_append]

theorem capitalize_capitalize (text : String) : capitalize (capitalize text) = capitalize text := by
  rw [← String.toList_inj, toList_capitalize, toList_capitalize, capitalizeChars_capitalizeChars]

theorem Trimmed.capitalizeChars (h : Trimmed text) : Trimmed (capitalizeChars text) := by
  cases text with
  | nil => exact h
  | cons c rest =>
    have hc := h.first c rfl
    rw [Text.capitalizeChars]
    refine ⟨fun d hd => ?_, fun d hd => ?_⟩
    · rw [List.head?_append_of_ne_nil _ (capital_ne_nil c)] at hd
      exact not_isBlank_capital hc (List.mem_of_mem_head? hd)
    · rcases eq_or_ne rest [] with rfl | hne
      · rw [List.append_nil] at hd
        exact not_isBlank_capital hc (List.mem_of_mem_getLast? hd)
      · rw [List.getLast?_append_of_ne_nil _ hne] at hd
        exact h.last d (by rwa [List.getLast?_cons_of_ne_nil hne])

theorem trim_capitalize_trim (text : String) :
    trim (capitalize (trim text)) = capitalize (trim text) := by
  have h := (trimmed_trimChars text.toList).capitalizeChars
  rw [trim, toList_capitalize, trim, String.toList_ofList, h.trimChars, ← String.toList_inj,
    toList_capitalize, String.toList_ofList, String.toList_ofList]

end DocumentDb.Text
