import DocumentDb.Error
import DocumentDb.Numeric.Reader
import DocumentDb.Text.Blank

/-!
# Expressions of filters

An expression compares what is found at a path with a literal. As text it is the path, an operator
and the literal, with blanks between them where wanted: the path ends at a blank or at a character
of an operator, the longest operator counts, and the literal is the rest of the text.
-/

namespace DocumentDb

/-- A comparison. -/
inductive Operator where
  | eq
  /-- Equality without conversions, for the elements of arrays. -/
  | strictEq
  | ne
  | gt
  | ge
  | lt
  | le
deriving DecidableEq, Repr, Inhabited

namespace Operator

/-- All operators. -/
def all : List Operator := [eq, strictEq, ne, gt, ge, lt, le]

/-- The signs of an operator. -/
def symbol : Operator → String
  | eq => "="
  | strictEq => "==="
  | ne => "!="
  | gt => ">"
  | ge => ">="
  | lt => "<"
  | le => "<="

/-- The operator of some signs. -/
def ofSymbol? (token : String) : Option Operator := all.find? (·.symbol == token)

/-- The operator of some signs, or the fault that there is none. -/
def parse (token : String) : Except QueryFault Operator :=
  match ofSymbol? token with
  | some operator => .ok operator
  | none => .error (.unknownOperator token)

/-- Whether a character occurs in operators. -/
def isSign (c : Char) : Bool := c == '=' || c == '!' || c == '<' || c == '>'

end Operator

/-- What a value is compared with. -/
inductive Literal where
  | bool (b : Bool)
  | null
  | undefined
  | number (x : Double)
  | text (s : String)
deriving DecidableEq, Repr, Inhabited

namespace Literal

/-- The digits at the beginning of a text, if there are any, and the rest. -/
def digits? (text : List Char) : Option (List Char) :=
  if (text.takeWhile isDigit).isEmpty then none else some (text.dropWhile isDigit)

/-- The rest behind a point and digits, or the whole text if there is no point. -/
def behindFraction? : List Char → Option (List Char)
  | '.' :: rest => digits? rest
  | rest => some rest

/-- Whether a text is empty or an exponent. -/
def isExponent : List Char → Bool
  | [] => true
  | c :: rest => (c == 'e' || c == 'E') && digits? (splitSign rest).2 == some []

/-- Whether a text is a number: digits, with an optional minus sign, fraction and exponent. -/
def isNumber (text : List Char) : Bool :=
  let unsigned := match text with
    | '-' :: rest => rest
    | rest => rest
  match (digits? unsigned).bind behindFraction? with
  | some rest => isExponent rest
  | none => false

/-- The text between two equal quotes. -/
def unquoted? (text : List Char) : Option (List Char) :=
  match text with
  | quote :: c :: rest =>
    if (quote = '"' || quote = '\'') && (c :: rest).getLast? = some quote then
      some (c :: rest).dropLast
    else none
  | _ => none

/-- The literal of characters without blanks at their ends. -/
def ofChars (chars : List Char) : Literal :=
  let token := String.ofList chars
  if token = "$true" then bool true
  else if token = "$false" then bool false
  else if token = "$null" then null
  else if token = "$undefined" then undefined
  else match unquoted? chars with
    | some inner => text (String.ofList inner)
    | none =>
      if isNumber chars then
        match readDouble? token with
        | some x => number x
        | none => text token
      else text token

/-- The literal of a text: one of four symbols, a text in quotes, a number, or the text itself. -/
def parse (token : String) : Literal := ofChars (Text.trimChars token.toList)

end Literal

/-- A comparison of what is found at a path with a literal. -/
structure Expression where
  path : String
  operator : Operator
  literal : Literal
deriving DecidableEq, Repr, Inhabited

namespace Expression

/-- The path that stands for an array element itself. -/
def itemKey : String := "$item"

/-- Whether the expression compares array elements themselves. -/
def addressesItem (e : Expression) : Bool := e.path = itemKey

/-- The operator signs at the beginning of a text, and the rest. The longest operator counts; two
equality signs are taken together too, although they are no operator. -/
def splitOperator? (text : List Char) : Option (List Char × List Char) :=
  match text with
  | '=' :: '=' :: '=' :: rest => some (['=', '=', '='], rest)
  | '=' :: '=' :: rest => some (['=', '='], rest)
  | '=' :: rest => some (['='], rest)
  | '!' :: '=' :: rest => some (['!', '='], rest)
  | '>' :: '=' :: rest => some (['>', '='], rest)
  | '>' :: rest => some (['>'], rest)
  | '<' :: '=' :: rest => some (['<', '='], rest)
  | '<' :: rest => some (['<'], rest)
  | _ => none

/-- Whether a character may stand in a path of an expression. -/
def isPathChar (c : Char) : Bool := !Text.isBlank c && !Operator.isSign c

/-- The path, the operator signs and the literal of a text, unless it has another form. -/
def split? (text : List Char) : Option (List Char × List Char × List Char) :=
  let start := text.dropWhile Text.isBlank
  let path := start.takeWhile isPathChar
  if path.isEmpty then none
  else match splitOperator? ((start.dropWhile isPathChar).dropWhile Text.isBlank) with
    | some (signs, rest) =>
      let literal := Text.trimChars rest
      if literal.contains '\n' then none else some (path, signs, literal)
    | none => none

/-- The expression of a text. -/
def parse (text : String) : Except QueryFault Expression :=
  match split? text.toList with
  | none => .error (.malformed text)
  | some (path, signs, literal) =>
    if literal.isEmpty then .error (.noValue text)
    else do
      let operator ← Operator.parse (String.ofList signs)
      pure { path := String.ofList path, operator, literal := Literal.ofChars literal }

/-- The expression of three tokens. -/
def ofTokens (key operator literal : String) : Except QueryFault Expression :=
  let path := Text.trim key
  if path.isEmpty then .error .noKey
  else do
    let operator ← Operator.parse (Text.trim operator)
    pure { path, operator, literal := Literal.parse literal }

end Expression

end DocumentDb
