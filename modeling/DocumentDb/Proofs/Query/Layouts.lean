import DocumentDb.Document.Listing
import DocumentDb.Proofs.Query.Spelling
import DocumentDb.Query.Pipeline
import Mathlib.Tactic.MkIffOfInductiveProp

/-!
# How expressions are laid out

The text of an expression is a path, the signs of an operator and a literal, with blanks between
them. Three of the operators are the beginning of a longer run of signs, and the longest one counts;
so a text is an expression just if it has this form and its operator ends where it does
(`Expression.parse_ok_iff`).

* `expressions_round_trip`: an expression is read from every layout of its parts, and nothing else
  is read.
* `sign_runs_read`: what becomes of a run of signs that is no operator. It is refused only if no
  operator stands at its beginning; otherwise the rest of the run goes into the literal.
-/

namespace DocumentDb

/-! ### The signs of operators -/

namespace Operator

/-- Whether another sign makes the operator longer. -/
def grows : Operator → Bool
  | eq | gt | lt => true
  | strictEq | ne | ge | le => false

/-- **An operator ends** before a text that does not make it longer. -/
def Ends (operator : Operator) (rest : List Char) : Prop :=
  operator.grows = true → rest.head? ≠ some '='

theorem ends_of_not_grows {operator : Operator} (h : operator.grows = false) (rest : List Char) :
    operator.Ends rest := by
  intro hgrows
  rw [h] at hgrows
  cases hgrows

/-- **No operator stands at the beginning** of a run of signs. -/
inductive Foreign : List Char → Prop
  | nil : Foreign []
  | not {tail : List Char} (h : tail.head? ≠ some '=') : Foreign ('!' :: tail)
  | double {tail : List Char} (h : tail.head? ≠ some '=') : Foreign ('=' :: '=' :: tail)

variable {rest : List Char}

theorem splitOperator?_symbol {operator : Operator} (h : operator.Ends rest) :
    Expression.splitOperator? (operator.symbol.toList ++ rest) =
      some (operator.symbol.toList, rest) := by
  cases rest with
  | nil => cases operator <;> rfl
  | cons c tail =>
    have hc : operator.grows = true → c ≠ '=' := fun hgrows heq => h hgrows (heq ▸ rfl)
    cases operator with
    | strictEq | ne | ge | le => rfl
    | eq | gt | lt =>
      have hne := hc rfl
      simp [symbol, Expression.splitOperator?, hne]

/-- What is split off is an operator that ends there, or two equality signs. -/
theorem of_splitOperator? {text signs : List Char}
    (h : Expression.splitOperator? text = some (signs, rest)) : text = signs ++ rest ∧
      (signs = ['=', '='] ∨ ∃ operator : Operator, signs = operator.symbol.toList ∧
        operator.Ends rest) := by
  have hends {tail : List Char} (hother : ∀ more, tail = '=' :: more → False) :
      tail.head? ≠ some '=' := by
    intro hhead
    obtain ⟨more, hmore⟩ := List.head?_eq_some_iff.mp hhead
    exact hother more hmore
  unfold Expression.splitOperator? at h
  split at h
  · cases h
    exact ⟨rfl, .inr ⟨.strictEq, rfl, ends_of_not_grows rfl _⟩⟩
  · cases h
    exact ⟨rfl, .inl rfl⟩
  · next hother =>
    cases h
    exact ⟨rfl, .inr ⟨.eq, rfl, fun _ => hends hother⟩⟩
  · cases h
    exact ⟨rfl, .inr ⟨.ne, rfl, ends_of_not_grows rfl _⟩⟩
  · cases h
    exact ⟨rfl, .inr ⟨.ge, rfl, ends_of_not_grows rfl _⟩⟩
  · next hother =>
    cases h
    exact ⟨rfl, .inr ⟨.gt, rfl, fun _ => hends hother⟩⟩
  · cases h
    exact ⟨rfl, .inr ⟨.le, rfl, ends_of_not_grows rfl _⟩⟩
  · next hother =>
    cases h
    exact ⟨rfl, .inr ⟨.lt, rfl, fun _ => hends hother⟩⟩
  · cases h

theorem parse_symbol (operator : Operator) : parse operator.symbol = .ok operator := by
  cases operator <;> rfl

theorem parse_double : parse (String.ofList ['=', '=']) = .error (.unknownOperator "==") := by
  rfl

theorem symbol_sign {operator : Operator} : ∀ c ∈ operator.symbol.toList, isSign c = true := by
  refine List.all_eq_true.mp ?_
  cases operator <;> decide

theorem symbol_ne_nil (operator : Operator) : operator.symbol.toList ≠ [] := by
  cases operator <;> decide

/-- A run of signs begins with an operator that ends there, or with none. -/
theorem begins_or_foreign {run : List Char} (hrun : ∀ c ∈ run, isSign c = true) :
    (∃ operator : Operator, ∃ more, run = operator.symbol.toList ++ more ∧ operator.Ends more) ∨
      Foreign run := by
  have hsign {c : Char} (hc : isSign c = true) : c = '=' ∨ c = '!' ∨ c = '<' ∨ c = '>' := by
    simpa [isSign, or_assoc] using hc
  -- the sign behind the first one tells the operator
  have hbehind (tail : List Char) : (∃ more, tail = '=' :: more) ∨ tail.head? ≠ some '=' := by
    by_cases hhead : tail.head? = some '='
    · exact .inl (List.head?_eq_some_iff.mp hhead)
    · exact .inr hhead
  cases run with
  | nil => exact .inr .nil
  | cons c tail =>
    rcases hsign (hrun c List.mem_cons_self) with rfl | rfl | rfl | rfl
    · rcases hbehind tail with ⟨tail, rfl⟩ | hends
      · rcases hbehind tail with ⟨more, rfl⟩ | hdouble
        · exact .inl ⟨.strictEq, more, rfl, ends_of_not_grows rfl more⟩
        · exact .inr (.double hdouble)
      · exact .inl ⟨.eq, tail, rfl, fun _ => hends⟩
    · rcases hbehind tail with ⟨more, rfl⟩ | hnot
      · exact .inl ⟨.ne, more, rfl, ends_of_not_grows rfl more⟩
      · exact .inr (.not hnot)
    · rcases hbehind tail with ⟨more, rfl⟩ | hends
      · exact .inl ⟨.le, more, rfl, ends_of_not_grows rfl more⟩
      · exact .inl ⟨.lt, tail, rfl, fun _ => hends⟩
    · rcases hbehind tail with ⟨more, rfl⟩ | hends
      · exact .inl ⟨.ge, more, rfl, ends_of_not_grows rfl more⟩
      · exact .inl ⟨.gt, tail, rfl, fun _ => hends⟩

/-- No operator is split off a foreign run. -/
theorem Foreign.not_splits {run : List Char} (h : Foreign run)
    (hrest : ∀ c ∈ rest.head?, isSign c = false) {operator : Operator} {behind : List Char}
    (hends : operator.Ends behind) :
    run ++ rest ≠ operator.symbol.toList ++ behind := by
  have hnot : rest.head? ≠ some '=' := fun hhead => by cases hrest '=' hhead
  have hnext {tail : List Char} (htail : tail.head? ≠ some '=') :
      (tail ++ rest).head? ≠ some '=' := by
    cases tail with
    | nil => exact hnot
    | cons => exact htail
  intro heq
  cases h with
  | nil =>
    obtain ⟨c, tail, hsymbol⟩ := List.exists_cons_of_ne_nil operator.symbol_ne_nil
    have hc : isSign c = true := symbol_sign c (hsymbol ▸ List.mem_cons_self)
    have hfirst := hrest c (by
      rw [List.nil_append] at heq
      rw [heq, hsymbol]
      rfl)
    rw [hc] at hfirst
    cases hfirst
  | @not tail htail =>
    cases operator with
    | ne =>
      have hbehind : tail ++ rest = '=' :: behind := (List.cons.inj heq).2
      exact hnext htail (congrArg List.head? hbehind)
    | _ => cases heq
  | @double tail htail =>
    cases operator with
    | eq =>
      have hbehind : '=' :: (tail ++ rest) = behind := (List.cons.inj heq).2
      exact hends rfl (congrArg List.head? hbehind).symm
    | strictEq =>
      have hbehind : tail ++ rest = '=' :: behind := (List.cons.inj (List.cons.inj heq).2).2
      exact hnext htail (congrArg List.head? hbehind)
    | _ => cases heq

end Operator

/-! ### Reading expressions -/

namespace Expression

/-- A text can stand as a path: it has a character, and none that ends a path. -/
@[mk_iff]
structure IsPath (path : List Char) : Prop where
  ne_nil : path ≠ []
  chars : ∀ c ∈ path, isPathChar c = true

instance : DecidablePred IsPath := fun path =>
  decidable_of_iff (path ≠ [] ∧ path.all isPathChar = true) <| by
    rw [isPath_iff, List.all_eq_true]

/-- **A text reads as an expression**: its parts stand in a row with blanks between them, the
operator ends where it does, and the literal is the rest without blanks at its ends. -/
inductive Reads (e : Expression) (text : List Char) : Prop
  | mk {before between rest : List Char}
    (htext : text =
      before ++ (e.path.toList ++ (between ++ (e.operator.symbol.toList ++ rest))))
    (hbefore : Text.Blank before) (hpath : IsPath e.path.toList) (hbetween : Text.Blank between)
    (hends : e.operator.Ends rest) (hne : Text.trimChars rest ≠ [])
    (hline : '\n' ∉ Text.trimChars rest) (hliteral : e.literal = .ofChars (Text.trimChars rest))

theorem not_isPathChar_of_sign {c : Char} (h : Operator.isSign c = true) :
    isPathChar c = false := by
  simp [isPathChar, h]

theorem not_isBlank_of_path {c : Char} (h : isPathChar c = true) : Text.isBlank c = false := by
  simp [isPathChar] at h
  exact h.1

theorem not_isBlank_of_sign {c : Char} (h : Operator.isSign c = true) :
    Text.isBlank c = false := by
  have hc : c = '=' ∨ c = '!' ∨ c = '<' ∨ c = '>' := by simpa [Operator.isSign, or_assoc] using h
  rcases hc with rfl | rfl | rfl | rfl <;> decide

section Split
variable {before path between tail : List Char} (hbefore : Text.Blank before)
  (hpath : IsPath path) (hbetween : Text.Blank between)
  (hstop : ∀ c ∈ (between ++ tail).head?, isPathChar c = false)
  (htail : ∀ c ∈ tail.head?, Text.isBlank c = false)
include hbefore hpath hbetween hstop htail

/-- Where a path ends and the blanks behind it end, the signs of an operator are read. -/
theorem split?_eq : split? (before ++ (path ++ (between ++ tail))) =
    (splitOperator? tail).bind fun (signs, rest) =>
      if (Text.trimChars rest).contains '\n' then none
      else some (path, signs, Text.trimChars rest) := by
  have hstart : ∀ c ∈ (path ++ (between ++ tail)).head?, Text.isBlank c = false := by
    obtain ⟨c, rest, rfl⟩ := List.exists_cons_of_ne_nil hpath.ne_nil
    rintro c ⟨⟩
    exact not_isBlank_of_path (hpath.chars c List.mem_cons_self)
  have hempty : path.isEmpty = false := by simpa using hpath.ne_nil
  unfold split?
  rw [Text.dropWhile_run hbefore hstart]
  dsimp only
  rw [Text.takeWhile_run hpath.chars hstop, Text.dropWhile_run hpath.chars hstop,
    Text.dropWhile_run hbetween htail, hempty]
  cases splitOperator? tail <;> rfl

end Split

/-- What is split has the parts that it is split into. -/
theorem of_split? {text path signs literal : List Char}
    (h : split? text = some (path, signs, literal)) : ∃ before between rest,
      text = before ++ (path ++ (between ++ (signs ++ rest))) ∧ Text.Blank before ∧ IsPath path ∧
      Text.Blank between ∧ splitOperator? (signs ++ rest) = some (signs, rest) ∧
      '\n' ∉ literal ∧ literal = Text.trimChars rest := by
  unfold split? at h
  dsimp only at h
  split_ifs at h with hempty
  split at h
  · next signs' rest hsigns =>
    split_ifs at h with hline
    cases h
    obtain ⟨htail, -⟩ := Operator.of_splitOperator? hsigns
    have hpath : IsPath ((text.dropWhile Text.isBlank).takeWhile isPathChar) :=
      ⟨fun h => hempty (List.isEmpty_iff.mpr h), fun c => List.mem_takeWhile_imp⟩
    refine ⟨text.takeWhile Text.isBlank,
      ((text.dropWhile Text.isBlank).dropWhile isPathChar).takeWhile Text.isBlank, rest, ?_,
      fun c => List.mem_takeWhile_imp, hpath, fun c => List.mem_takeWhile_imp, htail ▸ hsigns,
      by simpa using hline, rfl⟩
    rw [← htail, List.takeWhile_append_dropWhile, List.takeWhile_append_dropWhile,
      List.takeWhile_append_dropWhile]
  · cases h

/-- **The texts of expressions**, and what they are read as. -/
theorem parse_ok_iff {text : String} {e : Expression} :
    parse text = .ok e ↔ e.Reads text.toList := by
  constructor
  · intro h
    unfold parse at h
    split at h
    · cases h
    next path signs literal hsplit =>
    split_ifs at h with hempty
    obtain ⟨before, between, rest, htext, hbefore, hpath, hbetween, hsigns, hline, rfl⟩ :=
      of_split? hsplit
    obtain ⟨operator, rfl, hends⟩ : ∃ operator : Operator, signs = operator.symbol.toList ∧
        operator.Ends rest := by
      refine (Operator.of_splitOperator? hsigns).2.resolve_left ?_
      rintro rfl
      rw [Operator.parse_double] at h
      cases h
    rw [String.ofList_toList, Operator.parse_symbol] at h
    obtain rfl := Except.ok.inj h
    exact .mk (by rw [htext, String.toList_ofList]) hbefore (by rwa [String.toList_ofList]) hbetween
      hends (fun h => hempty (List.isEmpty_iff.mpr h)) hline rfl
  · rintro ⟨htext, hbefore, hpath, hbetween, hends, hne, hline, hliteral⟩
    next before between rest =>
    have hfirst : ∀ c ∈ (e.operator.symbol.toList ++ rest).head?, Operator.isSign c = true := by
      obtain ⟨c, tail, hsymbol⟩ := List.exists_cons_of_ne_nil e.operator.symbol_ne_nil
      rw [hsymbol]
      rintro c ⟨⟩
      exact Operator.symbol_sign c (hsymbol ▸ List.mem_cons_self)
    have hstop : ∀ c ∈ (between ++ (e.operator.symbol.toList ++ rest)).head?,
        isPathChar c = false := by
      cases between with
      | nil => exact fun c hc => not_isPathChar_of_sign (hfirst c hc)
      | cons blank tail =>
        rintro c ⟨⟩
        simp [isPathChar, hbetween blank List.mem_cons_self]
    have hsplit := split?_eq hbefore hpath hbetween hstop fun c hc =>
      not_isBlank_of_sign (hfirst c hc)
    rw [Operator.splitOperator?_symbol hends, Option.bind_some, ← htext] at hsplit
    have hempty : (Text.trimChars rest).isEmpty = false := by simpa using hne
    have hnone : (Text.trimChars rest).contains '\n' = false := by simpa using hline
    unfold parse
    rw [hsplit]
    simp only [hnone, hempty, Bool.false_eq_true, ↓reduceIte, ← hliteral, String.ofList_toList]
    rw [Operator.parse_symbol]
    rfl

/-! ### Layouts -/

/-- **A text lays out** a path, an operator and the spelling of a literal: they stand in a row with
blanks around them. -/
inductive LaysOut (text path : String) (operator : Operator) (spelling : String) : Prop
  | mk (before between after behind : String)
    (htext : text = before ++ path ++ between ++ operator.symbol ++ after ++ spelling ++ behind)
    (hbefore : Text.Blank before.toList) (hpath : IsPath path.toList)
    (hbetween : Text.Blank between.toList) (hafter : Text.Blank after.toList)
    (hbehind : Text.Blank behind.toList)

/-- An operator ends before blanks and a literal. -/
theorem ends_of_token {operator : Operator} {after spelling : List Char}
    (hafter : Text.Blank after) (htoken : Literal.Token spelling) (behind : List Char) :
    operator.Ends (after ++ spelling ++ behind) := by
  intro _ heq
  cases after with
  | cons c tail =>
    cases heq
    cases hafter '=' List.mem_cons_self
  | nil =>
    obtain ⟨c, tail, rfl⟩ := List.exists_cons_of_ne_nil htoken.ne_nil
    cases heq
    cases htoken.no_sign '=' rfl

/-- **Expressions are read from their layouts**, and a text that is read lays out what it is read
as, with a literal that is not empty. -/
theorem expressions_round_trip :
    (∀ (text path : String) (operator : Operator) (literal : Literal) (spelling : String),
      literal.Spelled spelling → LaysOut text path operator spelling →
      parse text = .ok { path, operator, literal }) ∧
    ∀ (text : String) (e : Expression), parse text = .ok e → ∃ spelling,
      LaysOut text e.path e.operator spelling ∧ spelling ≠ "" ∧ Text.Trimmed spelling.toList ∧
      '\n' ∉ spelling.toList ∧ e.literal = .parse spelling := by
  constructor
  · rintro text path operator literal spelling hspelled
      ⟨before, between, after, behind, htext, hbefore, hpath, hbetween, hafter, hbehind⟩
    have htoken := hspelled.token
    have htrim : Text.trimChars (after.toList ++ spelling.toList ++ behind.toList) =
        spelling.toList := Text.trimChars_margins htoken.trimmed hafter hbehind
    refine parse_ok_iff.mpr (.mk ?_ hbefore hpath hbetween
      (ends_of_token hafter htoken behind.toList) ?_ ?_ ?_)
    · simp only [htext, String.toList_append, List.append_assoc]
    · rw [htrim]
      exact htoken.ne_nil
    · rw [htrim]
      exact htoken.no_line
    · rw [htrim, hspelled.ofChars]
  · intro text e h
    obtain ⟨htext, hbefore, hpath, hbetween, -, hne, hline, hliteral⟩ := parse_ok_iff.mp h
    next before between rest =>
    obtain ⟨after, behind, hafter, hbehind, hrest⟩ := Text.exists_margins rest
    have htrimmed := Text.trimmed_trimChars rest
    have hout : LaysOut text e.path e.operator (.ofList (Text.trimChars rest)) := by
      refine .mk (.ofList before) (.ofList between) (.ofList after) (.ofList behind) ?_ ?_ hpath
        ?_ ?_ ?_
      · apply String.toList_injective
        simp only [String.toList_append, String.toList_ofList]
        rw [htext]
        nth_rewrite 1 [hrest]
        simp only [List.append_assoc]
      all_goals simpa only [String.toList_ofList]
    refine ⟨.ofList (Text.trimChars rest), hout, ?_, ?_, ?_, ?_⟩
    · intro hempty
      exact hne (String.ofList_eq_empty_iff.mp hempty)
    · rwa [String.toList_ofList]
    · rwa [String.toList_ofList]
    · rw [Literal.parse, String.toList_ofList, htrimmed.trimChars, hliteral]

/-- A quoted text with an operator and a symbol in it, behind a line feed. -/
theorem expressions_round_trip_quoted :
    parse "  a.b\n>='$true = 1' " = .ok ⟨"a.b", .ge, .text "$true = 1"⟩ :=
  expressions_round_trip.1 _ "a.b" .ge (.text "$true = 1") "'$true = 1'" (.single (by decide))
    (.mk "  " "\n" "" " " rfl (by decide) (by decide) (by decide) (by decide) (by decide))

/-! ### Runs of signs -/

/-- **A text is cut** into blanks, a path, blanks, a run of signs and the rest, each of them as long
as it can be. -/
@[mk_iff]
structure Cut (text before path between run rest : List Char) : Prop where
  text_eq : text = before ++ (path ++ (between ++ (run ++ rest)))
  before_blank : Text.Blank before
  isPath : IsPath path
  between_blank : Text.Blank between
  run_signs : ∀ c ∈ run, Operator.isSign c = true
  path_ends : ∀ c ∈ (between ++ (run ++ rest)).head?, isPathChar c = false
  between_ends : ∀ c ∈ (run ++ rest).head?, Text.isBlank c = false
  run_ends : ∀ c ∈ rest.head?, Operator.isSign c = false

instance (text before path between run rest : List Char) :
    Decidable (Cut text before path between run rest) :=
  decidable_of_iff (text = before ++ (path ++ (between ++ (run ++ rest))) ∧ Text.Blank before ∧
      IsPath path ∧ Text.Blank between ∧ run.all Operator.isSign = true ∧
      (between ++ (run ++ rest)).head?.all (!isPathChar ·) = true ∧
      (run ++ rest).head?.all (!Text.isBlank ·) = true ∧
      rest.head?.all (!Operator.isSign ·) = true) <| by
    simp only [cut_iff, Option.mem_def, Option.all_eq_true, List.all_eq_true, Bool.not_eq_true']

section Runs
variable {text : String} {before path between run rest more : List Char} {operator : Operator}

theorem Cut.split? (hcut : Cut text.toList before path between run rest) :
    split? text.toList = (splitOperator? (run ++ rest)).bind fun (signs, rest) =>
      if (Text.trimChars rest).contains '\n' then none
      else some (path, signs, Text.trimChars rest) := by
  rw [hcut.text_eq]
  exact split?_eq hcut.before_blank hcut.isPath hcut.between_blank hcut.path_ends hcut.between_ends

/-- The signs behind an operator stay in front of what follows the run. -/
theorem Cut.trimChars (hcut : Cut text.toList before path between run rest)
    (hrun : run = operator.symbol.toList ++ more) (hmore : more ≠ []) :
    Text.trimChars (more ++ rest) = more ++ Text.trimEndChars rest := by
  have hblank : ∀ c ∈ more, Text.isBlank c = false := fun c hc =>
    not_isBlank_of_sign (hcut.run_signs c (hrun ▸ List.mem_append_right _ hc))
  have hfirst : (more ++ rest).dropWhile Text.isBlank = more ++ rest := by
    obtain ⟨c, tail, rfl⟩ := List.exists_cons_of_ne_nil hmore
    exact List.dropWhile_cons_of_neg (Bool.eq_false_iff.mp (hblank c List.mem_cons_self))
  rw [Text.trimChars, hfirst]
  exact Text.trimEndChars_append rest (fun c hc => hblank c (List.mem_of_mem_getLast? hc)) hmore

/-- **An operator at the beginning of a run** is read, and the signs behind it go into the
literal. -/
theorem Cut.parse_begins (hcut : Cut text.toList before path between run rest)
    (hrun : run = operator.symbol.toList ++ more) (hends : operator.Ends more) (hmore : more ≠ []) :
    parse text = if '\n' ∈ Text.trimEndChars rest then .error (.malformed text)
      else .ok ⟨.ofList path, operator, .ofChars (more ++ Text.trimEndChars rest)⟩ := by
  have hbehind : operator.Ends (more ++ rest) := by
    obtain ⟨c, tail, rfl⟩ := List.exists_cons_of_ne_nil hmore
    exact hends
  have hsplit := hcut.split?
  rw [hrun, List.append_assoc, Operator.splitOperator?_symbol hbehind, Option.bind_some] at hsplit
  have hmem : '\n' ∈ more ++ Text.trimEndChars rest ↔ '\n' ∈ Text.trimEndChars rest := by
    refine List.mem_append.trans (or_iff_right fun hin => ?_)
    cases hcut.run_signs '\n' (hrun ▸ List.mem_append_right _ hin)
  have hempty : (more ++ Text.trimEndChars rest).isEmpty = false := by simp [hmore]
  unfold parse
  rw [hsplit]
  simp only [hcut.trimChars hrun hmore, List.contains_eq_mem, decide_eq_true_eq, hmem]
  split_ifs with hline
  · rfl
  · simp only [hempty, Bool.false_eq_true, ↓reduceIte, String.ofList_toList, Operator.parse_symbol]
    rfl

/-- **A foreign run** is refused. -/
theorem Cut.parse_foreign (hcut : Cut text.toList before path between run rest)
    (hforeign : Operator.Foreign run) : ∃ fault, parse text = .error fault := by
  have hsplit := hcut.split?
  unfold parse
  rw [hsplit]
  cases hsigns : splitOperator? (run ++ rest) with
  | none => exact ⟨_, rfl⟩
  | some parts =>
    obtain ⟨signs, behind⟩ := parts
    obtain ⟨heq, rfl | ⟨operator, rfl, hends⟩⟩ := Operator.of_splitOperator? hsigns
    · rw [Option.bind_some]
      dsimp only
      split_ifs
      · exact ⟨_, rfl⟩
      · dsimp only
        split_ifs
        · exact ⟨_, rfl⟩
        · rw [Operator.parse_double]
          exact ⟨_, rfl⟩
    · exact absurd heq (hforeign.not_splits hcut.run_ends hends)

theorem more_ne_nil (hother : ∀ operator : Operator, run ≠ operator.symbol.toList)
    (hrun : run = operator.symbol.toList ++ more) : more ≠ [] := by
  rintro rfl
  exact hother operator (by rw [hrun, List.append_nil])

/-- A run that is no operator is foreign and refused, or begins with an operator that is read. -/
theorem Cut.parse_cases (hcut : Cut text.toList before path between run rest)
    (hother : ∀ operator : Operator, run ≠ operator.symbol.toList) :
    (Operator.Foreign run ∧ ∃ fault, parse text = .error fault) ∨
    ∃ operator more, run = operator.symbol.toList ++ more ∧ operator.Ends more ∧
      parse text = if '\n' ∈ Text.trimEndChars rest then .error (.malformed text)
        else .ok ⟨.ofList path, operator, .ofChars (more ++ Text.trimEndChars rest)⟩ := by
  rcases Operator.begins_or_foreign hcut.run_signs with ⟨operator, more, hrun, hends⟩ | hforeign
  · have hread := hcut.parse_begins hrun hends (more_ne_nil hother hrun)
    exact .inr ⟨operator, more, hrun, hends, hread⟩
  · exact .inl ⟨hforeign, hcut.parse_foreign hforeign⟩

/-- **What becomes of a run of signs that is no operator.** -/
theorem sign_runs_read (hcut : Cut text.toList before path between run rest)
    (hother : ∀ operator : Operator, run ≠ operator.symbol.toList) :
    ((∃ fault, parse text = .error fault) ↔
      Operator.Foreign run ∨ '\n' ∈ Text.trimEndChars rest) ∧
    (∀ e, parse text = .ok e ↔ e.path.toList = path ∧ '\n' ∉ Text.trimEndChars rest ∧
      ∃ more, run = e.operator.symbol.toList ++ more ∧ e.operator.Ends more ∧
        e.literal = .ofChars (more ++ Text.trimEndChars rest)) ∧
    ∀ fault, parse text = .error fault → Matcher.ofExpression text = .error fault ∧
      ∀ query : Query, query.fault = none →
        (query.filter text).fault = some (.recorded fault) ∧
        (query.and text).fault = some (.recorded fault) ∧
        (query.or text).fault = some (.recorded fault) := by
  refine ⟨?_, fun e => ?_, fun fault hparse => ?_⟩
  · constructor
    · rintro ⟨fault, hparse⟩
      rcases hcut.parse_cases hother with ⟨hforeign, -⟩ | ⟨operator, more, -, -, hread⟩
      · exact .inl hforeign
      · rw [hread] at hparse
        split_ifs at hparse with hline
        exact .inr hline
    · rintro (hforeign | hline)
      · exact hcut.parse_foreign hforeign
      · rcases hcut.parse_cases hother with ⟨-, hfault⟩ | ⟨operator, more, -, -, hread⟩
        · exact hfault
        · exact ⟨_, hread.trans (if_pos hline)⟩
  · constructor
    · intro hparse
      rcases hcut.parse_cases hother with ⟨-, fault, hfault⟩ | ⟨operator, more, hrun, hends, hread⟩
      · rw [hfault] at hparse
        cases hparse
      · rw [hread] at hparse
        split_ifs at hparse with hline
        obtain rfl := Except.ok.inj hparse
        exact ⟨String.toList_ofList, hline, more, hrun, hends, rfl⟩
    · rintro ⟨rfl, hline, more, hrun, hends, hliteral⟩
      rw [hcut.parse_begins hrun hends (more_ne_nil hother hrun), if_neg hline,
        String.ofList_toList, ← hliteral]
  · have hpredicate : Query.predicate text = .error fault := by
      rw [Query.predicate, hparse]
      rfl
    refine ⟨by rw [Matcher.ofExpression, hparse]; rfl, fun query hquery => ⟨?_, ?_, ?_⟩⟩
    · simp [Query.filter, Query.openChain, hpredicate, Query.fail, hquery]
    · simp [Query.and, Query.extendChain, hpredicate, Query.fail, hquery]
    · simp [Query.or, Query.extendChain, hpredicate, Query.fail, hquery]

end Runs

/-- The signs of `!=` stand at the beginning of a run, and another sign behind them. -/
theorem sign_runs_read_unequal : parse "total !== 10" = .ok ⟨"total", .ne, .text "= 10"⟩ := by
  have hcut : Cut "total !== 10".toList [] "total".toList [' '] "!==".toList " 10".toList := by
    decide
  have hother : ∀ operator : Operator, "!==".toList ≠ operator.symbol.toList := by
    intro operator
    cases operator <;> decide
  exact ((sign_runs_read hcut hother).2.1 _).mpr
    ⟨rfl, by decide, ['='], rfl, Operator.ends_of_not_grows rfl _, by decide⟩

/-- A run of signs that is no operator is not always refused: `=<` is read as `=`, and the other
sign goes into the literal. -/
theorem unknown_operator_accepted : ¬ ∀ (text : String) (before path between run rest : List Char),
    Cut text.toList before path between run rest →
    (∀ operator : Operator, run ≠ operator.symbol.toList) →
    ∃ fault, parse text = .error fault := by
  intro h
  have hcut : Cut "age =< 3".toList [] "age".toList [' '] "=<".toList " 3".toList := by decide
  have hother : ∀ operator : Operator, "=<".toList ≠ operator.symbol.toList := by
    intro operator
    cases operator <;> decide
  obtain ⟨fault, hfault⟩ := h _ _ _ _ _ _ hcut hother
  have hread : parse "age =< 3" = .ok ⟨"age", .eq, .text "< 3"⟩ := by rfl
  rw [hread] at hfault
  cases hfault

end Expression

end DocumentDb
