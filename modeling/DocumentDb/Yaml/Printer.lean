import DocumentDb.Yaml.Scalar

/-!
# YAML text of values

Objects are mappings with a line for each key, and arrays are sequences with a line for each item;
only empty ones stand in brackets. A level is indented by two spaces, but a sequence under a key is
not indented further than the key.
-/

namespace DocumentDb.Yaml

/-- A line break, unless the text ends a line already. -/
def lineEnd (text : String) : String := if text.toList.getLast?.any isBreak then "" else "\n"

/-- A text with the end of its line. -/
def endLine (text : String) : String := text ++ lineEnd text

/-- The text of a number. -/
def numberText : Number → String
  | .int n => toString n
  | .double x => x.text .yaml

/-- Rows of a collection; the first one stands where the text is put. -/
def joinRows (indent : Nat) (rows : List String) : String :=
  (String.ofList (margin indent)).intercalate rows

/-- Rows of a collection on lines of their own. -/
def spreadRows (indent : Nat) (rows : List String) : String :=
  "\n" ++ String.ofList (margin indent) ++ joinRows indent rows

/-- The number of bytes of the longest key that has its value on its line. -/
def maxKeySize : Nat := 128

/-- Whether a key has its value on its line. -/
def isSimpleKey (key : String) : Bool :=
  key.utf8ByteSize ≤ maxKeySize && !key.toList.any isLineEnd

mutual

/-- What follows the colon of a simple key in a mapping with a given indentation. -/
def afterKey (indent : Nat) : Value → String
  | .null => " null\n"
  | .bool b => if b then " true\n" else " false\n"
  | .number n => " " ++ numberText n ++ "\n"
  | .string s => " " ++ endLine (scalarText (indent + 2) s)
  | .array [] => " []\n"
  | .object [] => " \x7b\x7d\n"
  | .array items => spreadRows indent (itemRows indent items)
  | .object fields => spreadRows (indent + 2) (fieldRows (indent + 2) fields)

/-- What follows a mark at the beginning of a row of a collection with a given indentation. -/
def afterMark (indent : Nat) : Value → String
  | .null => " null\n"
  | .bool b => if b then " true\n" else " false\n"
  | .number n => " " ++ numberText n ++ "\n"
  | .string s => " " ++ endLine (scalarText (indent + 2) s)
  | .array [] => " []\n"
  | .object [] => " \x7b\x7d\n"
  | .array items => " " ++ joinRows (indent + 2) (itemRows (indent + 2) items)
  | .object fields => " " ++ joinRows (indent + 2) (fieldRows (indent + 2) fields)

/-- The rows of the items of a sequence. -/
def itemRows (indent : Nat) : List Value → List String
  | [] => []
  | item :: rest => ("-" ++ afterMark indent item) :: itemRows indent rest

/-- The rows of the fields of a mapping. -/
def fieldRows (indent : Nat) : List (String × Value) → List String
  | [] => []
  | (key, value) :: rest =>
    let keyText := scalarText (indent + 2) key
    let row :=
      if isSimpleKey key then keyText ++ ":" ++ afterKey indent value
      else
        "? " ++ endLine keyText ++ String.ofList (margin indent) ++ ":" ++ afterMark indent value
    row :: fieldRows indent rest

end

/-- The YAML text of a value. -/
def text : Value → String
  | .null => "null\n"
  | .bool b => if b then "true\n" else "false\n"
  | .number n => numberText n ++ "\n"
  | .string s => endLine (scalarText 2 s)
  | .array [] => "[]\n"
  | .object [] => "\x7b\x7d\n"
  | .array items => joinRows 0 (itemRows 0 items)
  | .object fields => joinRows 0 (fieldRows 0 fields)

end DocumentDb.Yaml
