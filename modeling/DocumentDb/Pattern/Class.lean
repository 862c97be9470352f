import DocumentDb.Text.Case
import DocumentDb.Text.Category
import DocumentDb.Text.Script
import DocumentDb.Text.Blank

/-!
# Character classes of patterns

A class is a set of characters built from ranges and properties by the set operations. `folded`
closes a set under differences in case. The names of properties are compared without case, spaces,
underscores and hyphens.
-/

namespace DocumentDb.Pattern

open Text (CharSet)

/-- A set of characters. -/
inductive Class where
  /-- All code points between two, both included. -/
  | range (first last : Nat)
  /-- The characters with a property. -/
  | property (set : CharSet)
  | complement (inner : Class)
  | union (a b : Class)
  | intersection (a b : Class)
  | difference (a b : Class)
  | symmetric (a b : Class)
  /-- The characters that differ at most in case from one of the set. -/
  | folded (inner : Class)
  /-- The same, for the letters of ASCII only. -/
  | foldedAscii (inner : Class)
deriving Inhabited

/-- The other case of an ASCII letter. -/
def otherAsciiCase (c : Char) : Char := if c.isUpper then c.toLower else c.toUpper

namespace Class

/-- The set without characters. -/
def none : Class := .property []

/-- The set of one character. -/
def single (c : Char) : Class := .range c.toNat c.toNat

/-- The set of all characters. -/
def any : Class := .range 0 0x10FFFF

/-- Whether a character belongs to a class. -/
def contains : Class → Char → Bool
  | range first last, c => first ≤ c.toNat && c.toNat ≤ last
  | property set, c => set.contains c.toNat
  | complement inner, c => !inner.contains c
  | union a b, c => a.contains c || b.contains c
  | intersection a b, c => a.contains c && b.contains c
  | difference a b, c => a.contains c && !b.contains c
  | symmetric a b, c => a.contains c != b.contains c
  | folded inner, c => (Text.caseVariants c).any inner.contains
  | foldedAscii inner, c => inner.contains c || inner.contains (otherAsciiCase c)

/-- The class with `complement` around it if asked for. -/
def negate (negated : Bool) (inner : Class) : Class :=
  if negated then complement inner else inner

end Class

/-! ### Named classes -/

/-- White space. -/
def blanks : CharSet :=
  [(9, 13), (32, 32), (0x85, 0x85), (0xA0, 0xA0), (0x1680, 0x1680), (0x2000, 0x200A),
    (0x2028, 0x2029), (0x202F, 0x202F), (0x205F, 0x205F), (0x3000, 0x3000)]

/-- The sets of `\d`, `\s` and `\w` among all characters. -/
def shorthand? (c : Char) : Option CharSet :=
  match c with
  | 'd' => some Text.decimalDigits
  | 's' => some blanks
  | 'w' => some Text.wordCharacters
  | _ => none

/-- The sets of `\d`, `\s` and `\w` among the ASCII characters. -/
def asciiShorthand? (c : Char) : Option CharSet :=
  match c with
  | 'd' => some [(48, 57)]
  | 's' => some [(9, 13), (32, 32)]
  | 'w' => some [(48, 57), (65, 90), (95, 95), (97, 122)]
  | _ => none

/-- The ASCII classes by name. -/
def asciiClasses : List (String × CharSet) :=
  [("alnum", [(48, 57), (65, 90), (97, 122)]),
   ("alpha", [(65, 90), (97, 122)]),
   ("ascii", [(0, 127)]),
   ("blank", [(9, 9), (32, 32)]),
   ("cntrl", [(0, 31), (127, 127)]),
   ("digit", [(48, 57)]),
   ("graph", [(33, 126)]),
   ("lower", [(97, 122)]),
   ("print", [(32, 126)]),
   ("punct", [(33, 47), (58, 64), (91, 96), (123, 126)]),
   ("space", [(9, 13), (32, 32)]),
   ("upper", [(65, 90)]),
   ("word", [(48, 57), (65, 90), (95, 95), (97, 122)]),
   ("xdigit", [(48, 57), (65, 70), (97, 102)])]

/-- A property name without case and separators. -/
def plainName (name : String) : String :=
  String.ofList ((name.toList.filter fun c => c ≠ ' ' && c ≠ '_' && c ≠ '-').map Char.toLower)

/-- The long names of the general categories and their groups. -/
def categoryNames : List (String × String) :=
  [("letter", "l"), ("casedletter", "lc"), ("uppercaseletter", "lu"), ("lowercaseletter", "ll"),
   ("titlecaseletter", "lt"), ("modifierletter", "lm"), ("otherletter", "lo"), ("mark", "m"),
   ("combiningmark", "m"), ("nonspacingmark", "mn"), ("spacingmark", "mc"),
   ("enclosingmark", "me"), ("number", "n"), ("decimalnumber", "nd"), ("digit", "nd"),
   ("letternumber", "nl"), ("othernumber", "no"), ("punctuation", "p"), ("punct", "p"),
   ("connectorpunctuation", "pc"), ("dashpunctuation", "pd"), ("openpunctuation", "ps"),
   ("closepunctuation", "pe"), ("initialpunctuation", "pi"), ("finalpunctuation", "pf"),
   ("otherpunctuation", "po"), ("symbol", "s"), ("mathsymbol", "sm"), ("currencysymbol", "sc"),
   ("modifiersymbol", "sk"), ("othersymbol", "so"), ("separator", "z"),
   ("spaceseparator", "zs"), ("lineseparator", "zl"), ("paragraphseparator", "zp"),
   ("other", "c"), ("control", "cc"), ("cntrl", "cc"), ("format", "cf"), ("privateuse", "co"),
   ("unassigned", "cn"), ("surrogate", "cs")]

/-- All assigned code points: those of one of the categories. -/
def assigned : Class :=
  Text.generalCategories.foldr (fun category rest => .union (.property category.2) rest) .none

/-- The class of a general category, or of all whose short name begins with the same letter. -/
def category? (name : String) : Option Class :=
  let short := ((categoryNames.find? (·.1 == name)).map (·.2)).getD name
  if short = "any" then some .any
  else if short = "assigned" then some assigned
  else if short = "ascii" then some (.range 0 127)
  else if short = "cn" then some (.complement assigned)
  else if short = "cs" then some .none
  else if short = "lc" then
    some (Text.generalCategories.foldr (fun category rest =>
      if category.1 = "lu" || category.1 = "ll" || category.1 = "lt" then
        .union (.property category.2) rest
      else rest) .none)
  else
    let members := Text.generalCategories.filter fun category =>
      if short.length = 1 then short.isPrefixOf category.1 else category.1 == short
    if members.isEmpty then Option.none
    else
      let all := members.foldr (fun category rest => .union (.property category.2) rest) .none
      some (if short = "c" then .union all (.complement assigned) else all)

/-- The class of a script. -/
def script? (name : String) : Option Class :=
  (Text.scripts.find? fun script => script.long == name || script.short == name).map fun script =>
    .property (.ofText script.ranges)

/-- The class of a property that a character has or has not. -/
def binary? (name : String) : Option Class :=
  if name = "alphabetic" || name = "alpha" then some (.property Text.alphabetic)
  else if name = "lowercase" || name = "lower" then some (.property Text.smallLetters)
  else if name = "uppercase" || name = "upper" then some (.property Text.capitals)
  else if name = "whitespace" || name = "wspace" || name = "space" then some (.property blanks)
  else if name = "cased" then some (.property Text.casedCharacters)
  else if name = "caseignorable" || name = "ci" then some (.property Text.caseIgnorable)
  else if name = "asciihexdigit" || name = "ahex" then
    some (.property [(48, 57), (65, 70), (97, 102)])
  else Option.none

/-- The first of several alternatives that exists. -/
def firstOf (alternatives : List (Option Class)) : Option Class := alternatives.findSome? id

/-- The class that a property name stands for; a leading `is` is passed over. -/
def named? (name : String) : Option Class :=
  let plain := plainName name
  let bare := if "is".isPrefixOf plain then String.ofList (plain.toList.drop 2) else plain
  firstOf [binary? plain, category? plain, script? plain, binary? bare, category? bare,
    script? bare]

/-- The class of a property with a value. -/
def valued? (property value : String) : Option Class :=
  let property := plainName property
  let value := plainName value
  if property = "generalcategory" || property = "gc" then category? value
  else if property = "script" || property = "sc" || property = "scriptextensions"
      || property = "scx" then script? value
  else Option.none

end DocumentDb.Pattern
