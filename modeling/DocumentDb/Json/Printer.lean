import DocumentDb.Json.Value

/-!
# JSON text of values

The compact text has no spaces; the pretty text puts each item on a line of its own, indented by
two spaces a level. Both write object fields in their order and escape in strings only quotes,
backslashes and control characters.
-/

namespace DocumentDb

/-- The lower-case hexadecimal digit of a number below sixteen. -/
def hexDigit (n : Nat) : Char := Char.ofNat (if n < 10 then 48 + n else 87 + n)

/-- A character inside a JSON string. -/
def escaped (c : Char) : List Char :=
  if c = '"' then ['\\', '"']
  else if c = '\\' then ['\\', '\\']
  else if c = '\n' then ['\\', 'n']
  else if c = '\r' then ['\\', 'r']
  else if c = '\t' then ['\\', 't']
  else if c.toNat = 8 then ['\\', 'b']
  else if c.toNat = 12 then ['\\', 'f']
  else if c.toNat < 32 then ['\\', 'u', '0', '0', hexDigit (c.toNat / 16), hexDigit (c.toNat % 16)]
  else [c]

/-- A text as a JSON string. -/
def quoted (text : String) : String :=
  "\"" ++ String.ofList (text.toList.flatMap escaped) ++ "\""

namespace Value

mutual

/-- The compact JSON text. -/
def text : Value → String
  | .null => "null"
  | .bool b => if b then "true" else "false"
  | .number n => n.text
  | .string s => quoted s
  | .array items => "[" ++ ",".intercalate (itemTexts items) ++ "]"
  | .object fields => "\x7b" ++ ",".intercalate (fieldTexts fields) ++ "\x7d"

/-- The compact texts of several values. -/
def itemTexts : List Value → List String
  | [] => []
  | item :: rest => text item :: itemTexts rest

/-- The compact texts of several fields. -/
def fieldTexts : List (String × Value) → List String
  | [] => []
  | (key, value) :: rest => (quoted key ++ ":" ++ text value) :: fieldTexts rest

end

/-- A line break and the indentation of a level. -/
def newLine (level : Nat) : String := "\n" ++ String.ofList (List.replicate (2 * level) ' ')

mutual

/-- The pretty JSON text of a value that stands at an indentation level. -/
def prettyAt (level : Nat) : Value → String
  | .array [] => "[]"
  | .object [] => "\x7b\x7d"
  | .array items =>
    "[" ++ newLine (level + 1)
      ++ ("," ++ newLine (level + 1)).intercalate (prettyItems (level + 1) items)
      ++ newLine level ++ "]"
  | .object fields =>
    "\x7b" ++ newLine (level + 1)
      ++ ("," ++ newLine (level + 1)).intercalate (prettyFields (level + 1) fields)
      ++ newLine level ++ "\x7d"
  | .null => "null"
  | .bool b => if b then "true" else "false"
  | .number n => n.text
  | .string s => quoted s

/-- The pretty texts of several values. -/
def prettyItems (level : Nat) : List Value → List String
  | [] => []
  | item :: rest => prettyAt level item :: prettyItems level rest

/-- The pretty texts of several fields. -/
def prettyFields (level : Nat) : List (String × Value) → List String
  | [] => []
  | (key, value) :: rest =>
    (quoted key ++ ": " ++ prettyAt level value) :: prettyFields level rest

end

/-- The pretty JSON text. -/
def pretty (value : Value) : String := prettyAt 0 value

end Value

namespace Object

/-- The compact JSON text of an object. -/
def text (fields : Object) : String := (Value.object fields).text

/-- The number of bytes of the compact text. -/
def byteSize (fields : Object) : Nat := (text fields).utf8ByteSize

end Object

end DocumentDb
