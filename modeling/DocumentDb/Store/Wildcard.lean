import DocumentDb.Store.Directory

/-!
# Wildcards in paths

A pattern of paths has a pattern of names for each part between slashes: `?` stands for any
character, `*` for any text, a class in brackets for one of its characters, and the part `**` for
any number of folders. A bracket without its counterpart and a run of stars that is no part of its
own make the pattern invalid.
-/

namespace DocumentDb.Wildcard

/-- An element of a pattern of names. -/
inductive Token where
  | char (c : Char)
  /-- Any character. -/
  | one
  /-- Any text. -/
  | many
  /-- A character in one of the ranges, or in none of them. -/
  | range (negated : Bool) (ranges : List (Char × Char))
deriving DecidableEq, Repr, Inhabited

/-- A part of a pattern of paths. -/
inductive Part where
  | name (tokens : List Token)
  /-- Any number of folders. -/
  | folders
deriving DecidableEq, Repr, Inhabited

/-- The ranges between the brackets of a class; a single character is a range of its own. -/
def rangesOf : List Char → List (Char × Char)
  | a :: '-' :: b :: rest => (a, b) :: rangesOf rest
  | a :: rest => (a, a) :: rangesOf rest
  | [] => []

/-- The class behind an opening bracket and what follows its closing one. The first character of a
class is no closing bracket. -/
def class? (text : List Char) : Option (Token × List Char) :=
  let (negated, body) := match text with
    | '!' :: rest => (true, rest)
    | rest => (false, rest)
  match body with
  | [] => none
  | first :: rest =>
    match rest.dropWhile (· ≠ ']') with
    | [] => none
    | _ :: behind =>
      some (.range negated (rangesOf (first :: rest.takeWhile (· ≠ ']'))), behind)

/-- The tokens of a name pattern. The fuel is the length of the text. -/
def tokens? : Nat → List Char → Option (List Token)
  | _, [] => some []
  | 0, _ => none
  | fuel + 1, c :: rest =>
    match c with
    | '?' => (tokens? fuel rest).map (.one :: ·)
    | '*' => if rest.head? = some '*' then none else (tokens? fuel rest).map (.many :: ·)
    | '[' => (class? rest).bind fun (token, behind) => (tokens? fuel behind).map (token :: ·)
    | c => (tokens? fuel rest).map (.char c :: ·)

/-- The part that a text between slashes is. -/
def part? (text : String) : Option Part :=
  if text = "**" then some .folders else (tokens? text.length text.toList).map .name

/-- The parts of a path with wildcards. -/
def parts? (path : Path) : Option (List Part) := path.mapM part?

/-- Whether a name matches tokens. -/
def matchesName : List Token → List Char → Bool
  | [], [] => true
  | [], _ :: _ => false
  | .many :: tokens, [] => matchesName tokens []
  | .many :: tokens, c :: rest =>
    matchesName tokens (c :: rest) || matchesName (.many :: tokens) rest
  | _ :: _, [] => false
  | .char d :: tokens, c :: rest => c == d && matchesName tokens rest
  | .one :: tokens, _ :: rest => matchesName tokens rest
  | .range negated ranges :: tokens, c :: rest =>
    (ranges.any fun (first, last) => first ≤ c && c ≤ last) != negated && matchesName tokens rest
termination_by tokens name => tokens.length + name.length

/-- Whether a path matches parts from its beginning to its end. -/
def matchesPath : List Part → Path → Bool
  | [], [] => true
  | [], _ :: _ => false
  | .folders :: parts, [] => matchesPath parts []
  | .folders :: parts, name :: rest =>
    matchesPath parts (name :: rest) || matchesPath (.folders :: parts) rest
  | .name _ :: _, [] => false
  | .name tokens :: parts, name :: rest =>
    matchesName tokens name.toList && matchesPath parts rest
termination_by parts path => parts.length + path.length

/-- Whether one path stands before another in the order of their names. -/
def pathBefore : Path → Path → Bool
  | [], _ => true
  | _ :: _, [] => false
  | a :: as, b :: bs => if a = b then pathBefore as bs else a ≤ b

/-- The paths of the files and folders of a directory that match a pattern, in order. -/
def find (directory : Directory) (pattern : Path) : Except Error (List Path) :=
  match parts? pattern with
  | none => .error .wildcard
  | some parts =>
    .ok (((directory.folders ++ directory.files.map (·.1)).filter (matchesPath parts)).mergeSort
      pathBefore)

end DocumentDb.Wildcard
