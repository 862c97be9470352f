import DocumentDb.Proofs.Store.Numbers
import DocumentDb.Store.Files

/-!
# Paths of shards

The shards of a collection are found by a pattern of paths. If no name on the way to its folder has
a character that means something in patterns, the paths that match the pattern are this folder
followed by a name that begins and ends like the name of a shard (`find_literal`). That is so for
plain names of collections, which have no character that means something in paths or patterns. What
is found is sorted; paths are sorted by their names from left to right.
-/

namespace DocumentDb

open Json

/-! ### Plain names -/

/-- The characters that mean something in paths or patterns. -/
def specialChars : List Char := ['/', '.', '?', '*', '[']

/-- **A plain name** has no special character. Letters, digits, underscores and dashes are plain. -/
def Plain (collection : String) : Prop := ∀ c ∈ collection.toList, c ∉ specialChars

instance (collection : String) : Decidable (Plain collection) :=
  List.decidableBAll (fun c => c ∉ specialChars) collection.toList

namespace FileStore
variable {collection : String}

/-- The folder of a plain collection lies in the directory itself, or is the directory if the name
is empty. -/
theorem folder_plain (h : Plain collection) :
    folder collection = if collection = "" then [] else [collection] := by
  have hslash : '/' ∉ collection.toList := fun hin => h _ hin (by decide)
  have hpoint : collection ≠ "." := by
    rintro rfl
    exact h '.' (by decide) (by decide)
  unfold folder Directory.pathOf Text.splitAt
  rw [List.splitOn_eq_singleton hslash]
  by_cases hempty : collection = "" <;> simp [hempty, hpoint]

end FileStore

/-! ### Patterns -/

namespace Wildcard

/-- The characters that mean something in patterns. -/
def wildChars : List Char := ['?', '*', '[']

/-- **A literal name** has no character that means something in patterns. -/
def Literal (name : String) : Prop := ∀ c ∈ name.toList, c ∉ wildChars

instance (name : String) : Decidable (Literal name) :=
  List.decidableBAll (fun c => c ∉ wildChars) name.toList

theorem tokens?_literal {text : List Char} (h : ∀ c ∈ text, c ∉ wildChars) {fuel : Nat}
    (hfuel : text.length ≤ fuel) : tokens? fuel text = some (text.map .char) := by
  induction text generalizing fuel with
  | nil => cases fuel <;> rfl
  | cons c rest ih =>
    obtain ⟨fuel, rfl⟩ : ∃ less, fuel = less + 1 := ⟨fuel - 1, by simp at hfuel; omega⟩
    obtain ⟨hc, hrest⟩ := List.forall_mem_cons.mp h
    have hmore := ih hrest (Nat.le_of_succ_le_succ hfuel)
    unfold tokens?
    split
    · cases hc (by decide)
    · cases hc (by decide)
    · cases hc (by decide)
    · rw [hmore]; rfl

theorem part?_literal {name : String} (h : Literal name) :
    part? name = some (.name (name.toList.map .char)) := by
  have hstars : name ≠ "**" := by
    rintro rfl
    exact h '*' (by decide) (by decide)
  rw [part?, if_neg hstars, tokens?_literal h (by rw [String.length_toList])]
  rfl

/-- Characters match themselves. -/
theorem matchesName_chars (literal : List Char) (tokens : List Token) (name : List Char) :
    matchesName (literal.map .char ++ tokens) name ↔
      ∃ rest, name = literal ++ rest ∧ matchesName tokens rest := by
  induction literal generalizing name with
  | nil => simp
  | cons c literal ih =>
    cases name with
    | nil => simp [matchesName]
    | cons d name =>
      simp only [List.map_cons, List.cons_append, matchesName, Bool.and_eq_true, beq_iff_eq, ih,
        List.cons.injEq]
      constructor
      · rintro ⟨rfl, rest, rfl, hrest⟩
        exact ⟨rest, ⟨rfl, rfl⟩, hrest⟩
      · rintro ⟨rest, ⟨rfl, rfl⟩, hrest⟩
        exact ⟨rfl, rest, rfl, hrest⟩

/-- A star matches any text. -/
theorem matchesName_many (tokens : List Token) (name : List Char) :
    matchesName (.many :: tokens) name ↔
      ∃ front rest, name = front ++ rest ∧ matchesName tokens rest := by
  induction name with
  | nil => simp [matchesName]
  | cons c name ih =>
    rw [matchesName, Bool.or_eq_true, ih]
    constructor
    · rintro (h | ⟨front, rest, rfl, hrest⟩)
      · exact ⟨[], c :: name, rfl, h⟩
      · exact ⟨c :: front, rest, rfl, hrest⟩
    · rintro ⟨front, rest, hname, hrest⟩
      cases front with
      | nil => left; rw [List.nil_append] at hname; rwa [hname]
      | cons d front =>
        cases hname
        exact Or.inr ⟨front, rest, rfl, hrest⟩

theorem matchesName_nil (name : List Char) : matchesName [] name ↔ name = [] := by
  cases name <;> simp [matchesName]

/-- The tokens of the pattern of the names of shards. -/
def shardTokens : List Token :=
  "shard-".toList.map .char ++ .many :: (".json".toList.map .char ++ [])

theorem part?_filePattern : part? Shard.filePattern = some (.name shardTokens) := by decide

theorem matchesName_shardTokens (name : List Char) :
    matchesName shardTokens name ↔
      ∃ middle, name = "shard-".toList ++ (middle ++ ".json".toList) := by
  unfold shardTokens
  rw [matchesName_chars]
  simp only [matchesName_many, matchesName_chars, matchesName_nil]
  constructor
  · rintro ⟨_, rfl, middle, _, rfl, _, rfl, rfl⟩
    exact ⟨middle, by simp⟩
  · rintro ⟨middle, rfl⟩
    exact ⟨_, rfl, middle, _, rfl, [], by simp, rfl⟩

/-- A literal name matches itself only. -/
theorem matchesName_literal (literal name : String) :
    matchesName (literal.toList.map .char) name.toList ↔ name = literal := by
  have hchars := matchesName_chars literal.toList [] name.toList
  rw [List.append_nil] at hchars
  rw [hchars]
  simp [matchesName_nil, String.toList_inj]

/-- The parts of the pattern of shards in a folder. -/
def shardParts (folder : Path) : List Part :=
  folder.map (fun name => .name (name.toList.map .char)) ++ [.name shardTokens]

theorem parts?_shards {folder : Path} (h : ∀ name ∈ folder, Literal name) :
    parts? (folder ++ [Shard.filePattern]) = some (shardParts folder) := by
  induction folder with
  | nil =>
    rw [List.nil_append, parts?, List.mapM_cons, part?_filePattern]
    rfl
  | cons name rest ih =>
    obtain ⟨hname, hrest⟩ := List.forall_mem_cons.mp h
    have hmore := ih hrest
    unfold parts? at hmore ⊢
    rw [List.cons_append, List.mapM_cons, part?_literal hname, hmore]
    rfl

/-- The pattern of shards in a folder matches what is in the folder and is named like a shard. -/
theorem matchesPath_shardParts (folder path : Path) :
    matchesPath (shardParts folder) path ↔
      ∃ name, path = folder ++ [name] ∧ matchesName shardTokens name.toList := by
  induction folder generalizing path with
  | nil => rcases path with _ | ⟨name, _ | ⟨second, rest⟩⟩ <;> simp [shardParts, matchesPath]
  | cons first rest ih =>
    cases path with
    | nil => simp [shardParts, matchesPath]
    | cons name others =>
      rw [shardParts, List.map_cons, List.cons_append, matchesPath, Bool.and_eq_true,
        matchesName_literal, ← shardParts, ih]
      constructor
      · rintro ⟨rfl, last, rfl, hlast⟩
        exact ⟨last, rfl, hlast⟩
      · rintro ⟨last, hpath, hlast⟩
        cases hpath
        exact ⟨rfl, last, rfl, hlast⟩

/-- What matches a pattern that ends in a pattern of names ends in a name that matches this. -/
theorem exists_name_of_matchesPath {parts : List Part} {path : Path} (h : matchesPath parts path)
    {front : List Part} {tokens : List Token} (hparts : parts = front ++ [.name tokens]) :
    ∃ before name, path = before ++ [name] ∧ matchesName tokens name.toList := by
  fun_induction matchesPath parts path generalizing front with
  | case1 => simp at hparts
  | case2 => cases h
  | case3 parts ih =>
    cases front with
    | nil => simp at hparts
    | cons part front => exact ih h (List.cons.inj hparts).2
  | case4 parts name rest ih ih' =>
    rcases Bool.or_eq_true_iff.mp h with h | h
    · cases front with
      | nil => simp at hparts
      | cons part front => exact ih h (List.cons.inj hparts).2
    · obtain ⟨before, last, rfl, hlast⟩ := ih' h hparts
      exact ⟨name :: before, last, rfl, hlast⟩
  | case5 => cases h
  | case6 first parts name rest ih =>
    obtain ⟨hname, hrest⟩ := Bool.and_eq_true_iff.mp h
    cases front with
    | nil =>
      cases hparts
      cases rest with
      | nil => exact ⟨[], name, rfl, hname⟩
      | cons => simp [matchesPath] at hrest
    | cons part front =>
      obtain ⟨before, last, rfl, hlast⟩ := ih hrest (List.cons.inj hparts).2
      exact ⟨name :: before, last, rfl, hlast⟩

/-- What is found by the pattern of shards in a folder, before it is sorted. -/
theorem find_literal {folder : Path} (h : ∀ name ∈ folder, Literal name) (directory : Directory) :
    find directory (folder ++ [Shard.filePattern]) =
      .ok (((directory.folders ++ directory.files.map (·.1)).filter
        (matchesPath (shardParts folder))).mergeSort pathBefore) := by
  rw [find, parts?_shards h]

/-- No name on the way to the folder of a plain collection has a wildcard. -/
theorem literal_of_plain {collection : String} (h : Plain collection) :
    ∀ name ∈ FileStore.folder collection, Literal name := by
  intro name hin
  rw [FileStore.folder_plain h] at hin
  split_ifs at hin with hempty
  · cases hin
  · rw [List.mem_singleton.mp hin]
    intro c hc hwild
    refine h c hc ?_
    simp only [wildChars, specialChars, List.mem_cons] at hwild ⊢
    exact .inr (.inr hwild)

/-! ### The order of paths -/

theorem pathBefore_total (a b : Path) : (pathBefore a b || pathBefore b a) = true := by
  induction a generalizing b with
  | nil => simp [pathBefore]
  | cons first rest ih =>
    cases b with
    | nil => simp [pathBefore]
    | cons second others =>
      by_cases heq : first = second
      · simpa [pathBefore, heq] using ih others
      · simpa [pathBefore, heq, Ne.symm heq] using le_total first second

theorem pathBefore_antisymm {a b : Path} (h : pathBefore a b) (h' : pathBefore b a) : a = b := by
  induction a generalizing b with
  | nil => cases b with
    | nil => rfl
    | cons second others => simp [pathBefore] at h'
  | cons first rest ih =>
    cases b with
    | nil => simp [pathBefore] at h
    | cons second others =>
      by_cases heq : first = second
      · simp only [pathBefore, heq, if_true] at h h'
        rw [heq, ih h h']
      · simp only [pathBefore, heq, Ne.symm heq, if_false, decide_eq_true_eq] at h h'
        exact absurd (le_antisymm h h') heq

theorem pathBefore_trans {a b c : Path} (h : pathBefore a b) (h' : pathBefore b c) :
    pathBefore a c := by
  induction a generalizing b c with
  | nil => simp [pathBefore]
  | cons first rest ih =>
    cases b with
    | nil => simp [pathBefore] at h
    | cons second others =>
      cases c with
      | nil => simp [pathBefore] at h'
      | cons third more =>
        simp only [pathBefore] at h h' ⊢
        by_cases heq : first = second
        · subst heq
          by_cases heq' : first = third
          · simp only [heq', if_true] at h h' ⊢
            exact ih h h'
          · simpa only [heq', if_false] using h'
        · by_cases heq' : second = third
          · subst heq'
            simpa only [heq, if_false] using h
          · simp only [heq, heq', if_false, decide_eq_true_eq] at h h'
            have hlt : first < third :=
              lt_of_lt_of_le (lt_of_le_of_ne h heq) h'
            simp [hlt.ne, hlt.le]

theorem pathBefore_append (front a b : Path) :
    pathBefore (front ++ a) (front ++ b) = pathBefore a b := by
  induction front with
  | nil => rfl
  | cons name rest ih => simp [pathBefore, ih]

/-- Paths that are in order are what sorting makes of their permutations. -/
theorem mergeSort_pathBefore {paths sorted : List Path} (h : paths.Perm sorted)
    (hsorted : sorted.Pairwise fun a b => pathBefore a b) :
    paths.mergeSort pathBefore = sorted := by
  have hmerge : (paths.mergeSort pathBefore).Pairwise fun a b => pathBefore a b := by
    refine List.pairwise_mergeSort ?_ ?_ paths
    · exact fun _ _ _ => pathBefore_trans
    · exact pathBefore_total
  exact ((List.mergeSort_perm _ _).trans h).eq_of_pairwise (fun _ _ _ _ => pathBefore_antisymm)
    hmerge hsorted

end Wildcard

end DocumentDb
