import DocumentDb.Text.Segment
import Mathlib.Data.List.Infix
import Mathlib.Data.String.Basic

/-!
# Segments of paths

A text is split into the pieces between its separators, and the pieces are the text again. What
stands behind the first separator is split by itself.
-/

namespace DocumentDb.Text

variable {separator : Char} {text name start rest : String}

/-- The text behind a beginning is all that stands there. -/
theorem afterStart?_eq_some_iff : afterStart? start text = some rest ↔ text = start ++ rest := by
  have hgo (start text : List Char) : afterStart?.go start text = some rest ↔
      text = start ++ rest.toList := by
    induction start generalizing text with
    | nil =>
      rw [afterStart?.go, Option.some_inj, List.nil_append, ← String.toList_inj,
        String.toList_ofList]
    | cons a as ih =>
      cases text with
      | nil => simp [afterStart?.go]
      | cons b bs =>
        rw [afterStart?.go]
        split_ifs with hab
        · rw [ih, hab, List.cons_append, List.cons_inj_right]
        · simp [Ne.symm hab]
  rw [afterStart?, hgo, ← String.toList_inj, String.toList_append]

theorem splitAt_ne_nil (separator : Char) (text : String) : splitAt separator text ≠ [] := by
  simp [splitAt, List.splitOn_ne_nil]

/-- A text without separators is its only piece. -/
theorem splitAt_name (h : separator ∉ name.toList) : splitAt separator name = [name] := by
  rw [splitAt, List.splitOn_eq_singleton h, List.map_singleton, String.ofList_toList]

/-- A text without separators is the first piece of what follows it behind a separator. -/
theorem splitAt_append (h : separator ∉ name.toList) (rest : String) :
    splitAt separator (name ++ String.singleton separator ++ rest) =
      name :: splitAt separator rest := by
  have hother : ∀ c ∈ name.toList, (c == separator) = false := by
    intro c hc
    rw [beq_eq_false_iff_ne]
    rintro rfl
    exact h hc
  have htext : (name ++ String.singleton separator ++ rest).toList =
      name.toList ++ separator :: rest.toList := by simp
  rw [splitAt, htext, List.splitOn, List.splitOnP_append_cons_of_forall_mem hother separator
    (beq_self_eq_true separator), List.map_cons, String.ofList_toList]
  rfl

/-- A text is its only piece, or it is split at its first separator. -/
theorem splitAt_cases (separator : Char) (text : String) :
    separator ∉ text.toList ∧ splitAt separator text = [text] ∨
      ∃ name rest, separator ∉ name.toList ∧
        text = name ++ String.singleton separator ++ rest ∧
        splitAt separator text = name :: splitAt separator rest := by
  by_cases hin : separator ∈ text.toList
  · obtain ⟨front, behind, htext, hfront⟩ := List.eq_append_cons_of_mem hin
    have hname : separator ∉ (String.ofList front).toList := by rwa [String.toList_ofList]
    have hsplit : text =
        String.ofList front ++ String.singleton separator ++ String.ofList behind := by
      rw [← String.toList_inj, htext]
      simp
    exact .inr ⟨_, _, hname, hsplit, hsplit ▸ splitAt_append hname _⟩
  · exact .inl ⟨hin, splitAt_name hin⟩

/-- **Different texts have different pieces.** -/
theorem splitAt_injective (separator : Char) : Function.Injective (splitAt separator) := by
  intro text other h
  have hpieces : text.toList.splitOn separator = other.toList.splitOn separator :=
    List.map_injective_iff.mpr (fun _ _ => String.ofList_inj.mp) h
  have hjoined (text : String) : [separator].intercalate (text.toList.splitOn separator) =
      text.toList := List.intercalate_splitOn separator
  rw [← String.toList_inj, ← hjoined text, hpieces, hjoined]

end DocumentDb.Text
