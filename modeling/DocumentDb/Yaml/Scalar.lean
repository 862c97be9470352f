import DocumentDb.Yaml.Datum

/-!
# Texts as YAML scalars

A text is written plainly if it reads back as the same text, in single quotes if it would read as
something else, and in double quotes if it has characters that need an escape. A text of several
lines is a literal block, which keeps its lines as they are.
-/

namespace DocumentDb.Yaml

/-- How a text is written. -/
inductive Style where
  | plain
  | singleQuoted
  | doubleQuoted
  | literal
deriving DecidableEq, Repr, Inhabited

/-! ### What a text may need -/

/-- Whether a character needs no escape. -/
def standsAsIs (c : Char) : Bool :=
  isPrintable c && c != '\t' && c != '\r' && c != '\u0085' && c != '\ufeff'

/-- Whether a character ends a line, be it in the raw text. -/
def isLineEnd (c : Char) : Bool := isBreak c || c == '\r' || c == '\u0085'

/-- Whether two characters with given properties stand next to each other. -/
def adjacent (first second : Char → Bool) : List Char → Bool
  | a :: b :: rest => (first a && second b) || adjacent first second (b :: rest)
  | _ => false

/-- Whether a character is a space or ends a line. -/
def isSpacing (c : Char) : Bool := c == ' ' || isBreak c

/-- Whether a plain text would begin with an indicator or a mark between documents. -/
def beginsSpecially : List Char → Bool
  | '-' :: '-' :: '-' :: _ | '.' :: '.' :: '.' :: _ => true
  | c :: rest =>
    "#,[]\x7b\x7d&*!|>'\"%@\x60".toList.contains c || ("?:-".toList.contains c && atGap rest)
  | [] => false

/-- Whether a plain text would have a comment or a key inside. -/
def readsFurther : List Char → Bool
  | ' ' :: '#' :: _ => true
  | ':' :: rest => atGap rest || readsFurther rest
  | _ :: rest => readsFurther rest
  | [] => false

/-- Whether a word stands for a truth value in some readers. -/
def isSwitchWord (text : String) : Bool :=
  ["y", "Y", "yes", "Yes", "YES", "n", "N", "no", "No", "NO", "true", "True", "TRUE", "false",
    "False", "FALSE", "on", "On", "ON", "off", "Off", "OFF"].contains text

/-- Whether a plain text would be read as a text. -/
def readsAsText (text : String) : Bool :=
  match Datum.ofPlain? text with
  | some (.text _) => !isPaddedNumber text && !isSwitchWord text
  | _ => false

/-- Whether a text may be written plainly. -/
def mayBePlain (text : String) : Bool :=
  let cs := text.toList
  readsAsText text && !cs.any isBreak && !beginsSpecially cs && !readsFurther cs
    && !(cs.head?.any isSpacing) && !(cs.getLast?.any isSpacing)

/-- The style of a text. -/
def styleOf (text : String) : Style :=
  let cs := text.toList
  if !cs.all standsAsIs || adjacent (· == ' ') isBreak cs then .doubleQuoted
  else if cs.contains '\n' then
    if cs.getLast? = some ' ' then .doubleQuoted else .literal
  else if mayBePlain text then .plain
  else if adjacent isBreak (· == ' ') cs then .doubleQuoted
  else .singleQuoted

/-! ### Writing -/

/-- The indentation of a line. -/
def margin (indent : Nat) : List Char := List.replicate indent ' '

/-- The text with a margin in front of each line that has characters; `fresh` says whether a line
begins with the text. -/
def withMargin (indent : Nat) (fresh : Bool) : List Char → List Char
  | [] => []
  | c :: rest =>
    if isBreak c then c :: withMargin indent true rest
    else if fresh then margin indent ++ c :: withMargin indent false rest
    else c :: withMargin indent false rest

/-- The upper-case hexadecimal digits of a number up to a width. -/
def hexText (width n : Nat) : List Char :=
  (List.range width).reverse.map fun place => (Nat.digitChar (n / Nat.pow 16 place % 16)).toUpper

/-- The letter of an escape. -/
def escapeLetter? (c : Char) : Option Char :=
  [('\x00', '0'), ('\x07', 'a'), ('\x08', 'b'), ('\t', 't'), ('\n', 'n'), ('\x0b', 'v'),
    ('\x0c', 'f'), ('\r', 'r'), ('\x1b', 'e'), ('"', '"'), ('\\', '\\'), ('\u0085', 'N'),
    ('\u2028', 'L'), ('\u2029', 'P')].lookup c

/-- A character in double quotes. -/
def escapedChar (c : Char) : List Char :=
  match escapeLetter? c with
  | some letter => ['\\', letter]
  | none =>
    if standsAsIs c then [c]
    else if c.toNat ≤ 0xFF then '\\' :: 'x' :: hexText 2 c.toNat
    else if c.toNat ≤ 0xFFFF then '\\' :: 'u' :: hexText 4 c.toNat
    else '\\' :: 'U' :: hexText 8 c.toNat

/-- A character in single quotes. -/
def doubledQuote (c : Char) : List Char := if c = '\'' then [c, c] else [c]

/-- A text in single quotes. -/
def inSingleQuotes (indent : Nat) (cs : List Char) : List Char :=
  let closing := if cs.getLast?.any isBreak then margin indent else []
  '\'' :: withMargin indent false (cs.flatMap doubledQuote) ++ closing ++ ['\'']

/-- The signs behind the bar of a literal block: the indentation if the text begins with a gap, and
what is done with the line ends at the end of the text. -/
def literalSigns (cs : List Char) : List Char :=
  let indentation := if cs.head?.any isSpacing then ['2'] else []
  let ending := match cs.reverse with
    | last :: before =>
      if !isBreak last then ['-']
      else if before.isEmpty || before.head?.any isBreak then ['+']
      else []
    | [] => ['-']
  indentation ++ ending

/-- A text as a scalar whose further lines are indented. -/
def scalarText (indent : Nat) (text : String) : String :=
  let cs := text.toList
  String.ofList (match styleOf text with
    | .plain => cs
    | .singleQuoted => inSingleQuotes indent cs
    | .doubleQuoted => '"' :: cs.flatMap escapedChar ++ ['"']
    | .literal => '|' :: literalSigns cs ++ '\n' :: withMargin indent true cs)

end DocumentDb.Yaml
