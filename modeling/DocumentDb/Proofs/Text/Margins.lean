import DocumentDb.Proofs.Text.Casing

/-!
# Runs and margins

A run of characters of one kind is taken off the beginning of a text up to the first character of
another kind. The margins of a text are the blanks at its ends; the text between them is what is
left when it is trimmed.

* `Text.trimChars_margins`, `Text.exists_margins`: trimming takes off the margins and nothing else.
-/

namespace DocumentDb.Text

/-! ### Runs -/

section Runs
variable {p : Char → Bool} {run rest : List Char} (hrun : ∀ c ∈ run, p c = true)
  (hrest : ∀ c ∈ rest.head?, p c = false)
include hrun hrest

theorem takeWhile_run : (run ++ rest).takeWhile p = run := by
  rw [List.takeWhile_append_of_pos hrun]
  cases rest with
  | nil => exact List.append_nil run
  | cons c rest =>
    rw [List.takeWhile_cons_of_neg (Bool.eq_false_iff.mp (hrest c rfl)), List.append_nil]

theorem dropWhile_run : (run ++ rest).dropWhile p = rest := by
  rw [List.dropWhile_append_of_pos hrun]
  cases rest with
  | nil => rfl
  | cons c rest => exact List.dropWhile_cons_of_neg (Bool.eq_false_iff.mp (hrest c rfl))

end Runs

/-! ### Margins -/

/-- There is nothing but blanks in a text. -/
def Blank (text : List Char) : Prop := ∀ c ∈ text, isBlank c = true

instance : DecidablePred Blank := fun text =>
  decidable_of_iff (text.all isBlank = true) List.all_eq_true

variable {text before after : List Char}

/-- A text has no blank at its end after them, so trimming stops there. -/
theorem trimEndChars_append (text : List Char) (hlast : ∀ c ∈ before.getLast?, isBlank c = false)
    (hne : before ≠ []) : trimEndChars (before ++ text) = before ++ trimEndChars text := by
  have hstop : before.reverse.dropWhile isBlank = before.reverse := by
    obtain ⟨c, rest, hcons⟩ := List.exists_cons_of_ne_nil (List.reverse_ne_nil_iff.mpr hne)
    have hc : isBlank c = false := hlast c (by rw [← List.head?_reverse, hcons]; rfl)
    rw [hcons]
    exact List.dropWhile_cons_of_neg (Bool.eq_false_iff.mp hc)
  unfold trimEndChars
  rw [List.reverse_append, List.dropWhile_append, hstop]
  split_ifs with hempty
  · rw [List.isEmpty_iff.mp hempty, List.reverse_nil, List.append_nil, List.reverse_reverse]
  · rw [List.reverse_append, List.reverse_reverse]

theorem trimEndChars_blank (hblank : Blank text) : trimEndChars text = [] := by
  have hreverse : ∀ c ∈ text.reverse, isBlank c = true := fun c hc =>
    hblank c (List.mem_reverse.mp hc)
  rw [trimEndChars, List.dropWhile_eq_nil_iff.mpr hreverse, List.reverse_nil]

/-- **Trimming takes off the margins.** -/
theorem trimChars_margins (htext : Trimmed text) (hbefore : Blank before) (hafter : Blank after) :
    trimChars (before ++ text ++ after) = text := by
  rw [trimChars, List.append_assoc, List.dropWhile_append_of_pos hbefore]
  rcases eq_or_ne text [] with rfl | hne
  · rw [List.nil_append, List.dropWhile_eq_nil_iff.mpr hafter]
    rfl
  · have hfirst : (text ++ after).dropWhile isBlank = text ++ after := by
      obtain ⟨c, rest, rfl⟩ := List.exists_cons_of_ne_nil hne
      exact List.dropWhile_cons_of_neg (Bool.eq_false_iff.mp (htext.first c rfl))
    rw [hfirst, trimEndChars_append after htext.last hne, trimEndChars_blank hafter,
      List.append_nil]

/-- **A text is what is left of it** with margins around it. -/
theorem exists_margins (text : List Char) : ∃ before after, Blank before ∧ Blank after ∧
    text = before ++ trimChars text ++ after := by
  have hend (text : List Char) : ∃ after, Blank after ∧ text = trimEndChars text ++ after := by
    refine ⟨(text.reverse.takeWhile isBlank).reverse, fun c hc => ?_, ?_⟩
    · exact List.mem_takeWhile_imp (List.mem_reverse.mp hc)
    · rw [trimEndChars, ← List.reverse_append, List.takeWhile_append_dropWhile,
        List.reverse_reverse]
  obtain ⟨after, hafter, hbehind⟩ := hend (text.dropWhile isBlank)
  refine ⟨text.takeWhile isBlank, after, fun c => List.mem_takeWhile_imp, hafter, ?_⟩
  rw [trimChars, List.append_assoc, ← hbehind, List.takeWhile_append_dropWhile]

end DocumentDb.Text
