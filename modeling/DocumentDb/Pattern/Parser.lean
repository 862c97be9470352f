import DocumentDb.Pattern.Expr

/-!
# Reading patterns

A pattern is read to an expression or refused. Groups may be named and may carry flags, which last
to the end of the group; look-around and back-references are refused. Without the `u` flag a
pattern speaks of ASCII only, and what could match half a character is refused.

The readers work on the text that is left, the names of groups seen so far and the flags in force.
Their fuel is a bound on the number of tokens, for which the length of the text is enough.
-/

namespace DocumentDb.Pattern

/-- What the flags of a pattern can change. -/
structure Flags where
  /-- `i`: differences in case do not count. -/
  caseless : Bool
  /-- `m`: anchors stand for the ends of lines. -/
  lines : Bool
  /-- `s`: a dot stands for line feeds too. -/
  dotAll : Bool
  /-- `u`: classes and words are those of all characters. -/
  wide : Bool
  /-- `R`: a carriage return ends a line too. -/
  crlf : Bool
  /-- `x`: white space and comments are passed over. -/
  spaced : Bool
deriving Inhabited

/-- The flags at the beginning of a pattern. -/
def Flags.start : Flags := ⟨false, false, false, true, false, false⟩

/-- Set the flag of a letter. -/
def Flags.set (flags : Flags) (letter : Char) (value : Bool) : Flags :=
  match letter with
  | 'i' => { flags with caseless := value }
  | 'm' => { flags with lines := value }
  | 's' => { flags with dotAll := value }
  | 'u' => { flags with wide := value }
  | 'R' => { flags with crlf := value }
  | 'x' => { flags with spaced := value }
  | _ => flags

/-- Where a reader stands. -/
structure Position where
  rest : List Char
  names : List String
  flags : Flags

/-- A reader of a part of a pattern. -/
abbrev Parser (α : Type) := StateT Position Option α

namespace Parser

/-- Refuse the pattern. -/
def refuse {α : Type} : Parser α := fun _ => none

/-- The next character, which stays. -/
def peek? : Parser (Option Char) := do pure (← get).rest.head?

/-- The next character, which must exist and stays. -/
def peek : Parser Char := do
  match (← get).rest with
  | [] => refuse
  | c :: _ => pure c

/-- Pass over one character. -/
def skip : Parser Unit := modify fun s => { s with rest := s.rest.tail }

/-- Pass over a given text, if it comes next. -/
def skipIf (text : String) : Parser Bool := do
  let s ← get
  if text.toList.isPrefixOf s.rest then
    set { s with rest := s.rest.drop text.toList.length }
    pure true
  else pure false

/-- The text behind white space and comments. -/
def behindSpace : Bool → List Char → List Char
  | _, [] => []
  | comment, c :: rest =>
    if comment then behindSpace (c ≠ '\n') rest
    else if Text.isBlank c then behindSpace false rest
    else if c = '#' then behindSpace true rest
    else c :: rest

/-- Pass over white space and comments, if the flags say so. -/
def skipSpace : Parser Unit := modify fun s =>
  if s.flags.spaced then { s with rest := behindSpace false s.rest } else s

/-- Pass over one character and the white space behind it. -/
def skipAll : Parser Unit := do skip; skipSpace

/-- Pass over a character that must come next. -/
def expect (c : Char) : Parser Unit := do
  if (← peek) = c then skip else refuse

/-- The value of an optional part that must be there. -/
def demand {α : Type} (part : Option α) : Parser α := fun s => part.map (·, s)

/-- Take characters while a test holds, at most as many as are left. -/
def takeWhile (test : Char → Bool) : Parser (List Char) := do
  go test (← get).rest.length
where
  go (test : Char → Bool) : Nat → Parser (List Char)
    | 0 => pure []
    | fuel + 1 => do
      match ← peek? with
      | some c =>
        if test c then do
          skipAll
          pure (c :: (← go test fuel))
        else pure []
      | none => pure []

end Parser

open Pattern.Parser

/-! ### Escapes -/

/-- What a token outside a class stands for. -/
inductive Token where
  | literal (c : Char)
  | anchor (condition : Anchor)
  | set (inner : Class)
  | dot

/-- Whether a character is one of the hexadecimal digits. -/
def isHexDigit (c : Char) : Bool :=
  isDigit c || ('a' ≤ c && c ≤ 'f') || ('A' ≤ c && c ≤ 'F')
where
  isDigit (c : Char) : Bool := '0' ≤ c && c ≤ '9'

/-- The character of a hexadecimal code. -/
def codePoint? (digits : List Char) : Option Char :=
  let n := Text.CharSet.hexNumber (digits.map Char.toLower)
  if digits.isEmpty || n > 0x10FFFF || (0xD800 ≤ n && n ≤ 0xDFFF) then none
  else some (Char.ofNat n)

/-- A given number of hexadecimal digits. -/
def readHexDigits : Nat → Parser (List Char)
  | 0 => pure []
  | count + 1 => do
    let c ← peek
    if !isHexDigit c then refuse
    skipAll
    pure (c :: (← readHexDigits count))

/-- The code behind `\x`, `\u` or `\U`: as many digits as the letter asks for, or any number in
braces. Two digits stand for a byte, which without the `u` flag must be ASCII. -/
def readHexCode (letter : Char) : Parser Char := do
  skipAll
  if (← peek) = '\x7b' then
    skipAll
    let digits ← takeWhile isHexDigit
    expect '\x7d'
    skipSpace
    demand (codePoint? digits)
  else
    let digits ← readHexDigits (if letter = 'x' then 2 else if letter = 'u' then 4 else 8)
    let c ← demand (codePoint? digits)
    if letter = 'x' && !(← get).flags.wide && c.toNat > 127 then refuse
    pure c

/-- The class under the flags: closed under case if they say so, and then perhaps negated. -/
def flagged (flags : Flags) (negated : Bool) (inner : Class) : Class :=
  .negate negated
    (if !flags.caseless then inner else if flags.wide then .folded inner else .foldedAscii inner)

/-- The same class, which without the `u` flag must hold ASCII characters only. -/
def narrowed (inner : Class) : Parser Class := do
  if !(← get).flags.wide && inner.contains '\u0080' then refuse
  pure inner

/-- The pieces before and behind the first occurrence of a text. -/
def splitOnce? (separator : List Char) : List Char → Option (List Char × List Char)
  | [] => none
  | c :: rest =>
    if separator.isPrefixOf (c :: rest) then some ([], (c :: rest).drop separator.length)
    else (splitOnce? separator rest).map fun (before, behind) => (c :: before, behind)

/-- The class of the text in the braces of a property, and whether it is negated. -/
def bracedProperty? (text : List Char) : Option (Class × Bool) :=
  let ofParts (parts : List Char × List Char) :=
    valued? (String.ofList parts.1) (String.ofList parts.2)
  match splitOnce? ['!', '='] text, splitOnce? [':'] text, splitOnce? ['='] text with
  | some parts, _, _ => (ofParts parts).map (·, true)
  | _, some parts, _ => (ofParts parts).map (·, false)
  | _, _, some parts => (ofParts parts).map (·, false)
  | _, _, _ => (named? (String.ofList text)).map (·, false)

/-- A property behind `\p` or `\P`. -/
def readProperty (negated : Bool) : Parser Class := do
  skipAll
  let c ← peek
  let (inner, inverse) ←
    if c = '\x7b' then do
      skipAll
      let text ← takeWhile (· ≠ '\x7d')
      expect '\x7d'
      demand (bracedProperty? text)
    else if c = '\\' then refuse
    else do
      skipAll
      demand ((named? (String.singleton c)).map (·, false))
  let flags := (← get).flags
  if !flags.wide then refuse
  pure (flagged flags (negated != inverse) inner)

/-- The characters that have a meaning of their own in patterns. -/
def isMeta (c : Char) : Bool := "\\.+*?()|[]\x7b\x7d^$#&-~".toList.contains c

/-- Whether a backslash before a character leaves it as it is. -/
def isEscapable (c : Char) : Bool :=
  isMeta c || (c.toNat < 128 && !c.isAlphanum && c ≠ '<' && c ≠ '>')

/-- The control character of an escape. -/
def controlEscape? (c : Char) : Option Char :=
  match c with
  | 'a' => some (Char.ofNat 7)
  | 'f' => some (Char.ofNat 12)
  | 't' => some '\t'
  | 'n' => some '\n'
  | 'r' => some '\r'
  | 'v' => some (Char.ofNat 11)
  | _ => none

/-- The anchor of a name in braces behind `\b`. -/
def namedBoundary? (ascii : Bool) (name : String) : Option Anchor :=
  match name with
  | "start" => some (.wordStart ascii)
  | "end" => some (.wordEnd ascii)
  | "start-half" => some (.wordStartHalf ascii)
  | "end-half" => some (.wordEndHalf ascii)
  | _ => none

/-- The anchor of `\b`. A brace behind it belongs to it if a letter or a hyphen follows. -/
def readBoundary (ascii : Bool) : Parser Anchor := do
  let before ← get
  if (← peek?) ≠ some '\x7b' then pure (.boundary ascii)
  else
    skipAll
    let inName := fun c : Char => c.isAlpha || c == '-'
    if !inName (← peek) then
      set before
      pure (.boundary ascii)
    else
      let name ← takeWhile inName
      expect '\x7d'
      demand (namedBoundary? ascii (String.ofList name))

/-- What a backslash and the characters behind it stand for. -/
def readEscape : Parser Token := do
  skip
  let c ← peek
  let flags := (← get).flags
  if '0' ≤ c && c ≤ '9' then refuse
  else if c = 'x' || c = 'u' || c = 'U' then pure (.literal (← readHexCode c))
  else if c = 'p' || c = 'P' then pure (.set (← readProperty (c = 'P')))
  else
    skip
    let shorthand := if flags.wide then shorthand? c.toLower else asciiShorthand? c.toLower
    match shorthand, controlEscape? c with
    | some set, _ => pure (.set (← narrowed (.negate c.isUpper (.property set))))
    | _, some control => pure (.literal control)
    | _, _ =>
      if isEscapable c then pure (.literal c)
      else match c with
        | 'A' => pure (.anchor .textStart)
        | 'z' => pure (.anchor .textEnd)
        | 'b' => do pure (.anchor (← readBoundary (!flags.wide)))
        | 'B' => pure (.anchor (.notBoundary (!flags.wide)))
        | '<' => pure (.anchor (.wordStart (!flags.wide)))
        | '>' => pure (.anchor (.wordEnd (!flags.wide)))
        | _ => refuse

/-! ### Bracketed classes -/

/-- An operation between the parts of a class. -/
inductive Operation where
  | intersection
  | difference
  | symmetric

/-- The class of an operation under the flags; a missing operation leaves the second part. -/
def combine (flags : Flags) (before : Option (Class × Operation)) (inner : Class) : Class :=
  match before with
  | none => inner
  | some (first, operation) =>
    let first := flagged flags false first
    let second := flagged flags false inner
    match operation with
    | .intersection => .intersection first second
    | .difference => .difference first second
    | .symmetric => .symmetric first second

/-- The operation that comes next, if one does. -/
def operation? (rest : List Char) : Option Operation :=
  match rest with
  | '&' :: '&' :: _ => some .intersection
  | '-' :: '-' :: _ => some .difference
  | '~' :: '~' :: _ => some .symmetric
  | _ => none

/-- An ASCII class in brackets and colons, if one comes next. -/
def readAsciiClass? : Parser (Option Class) := do
  let before ← get
  match before.rest with
  | '[' :: ':' :: text =>
    let negated := text.head? = some '^'
    let text := if negated then text.tail else text
    let name := text.takeWhile (· ≠ ':')
    let behind := text.dropWhile (· ≠ ':')
    match behind, asciiClasses.find? (·.1 == String.ofList name) with
    | ':' :: ']' :: rest, some (_, set) =>
      modify fun s => { s with rest }
      pure (some (← narrowed (flagged before.flags negated (.property set))))
    | _, _ => pure none
  | _ => pure none

/-- One character or escape in a class. -/
def readMember : Parser Token := do
  let c ← peek
  if c = '\\' then readEscape
  else
    skip
    pure (.literal c)

/-- A character that may stand in a class under the flags. -/
def classLiteral (token : Token) : Parser Char := do
  match token with
  | .literal c => if !(← get).flags.wide && c.toNat > 127 then refuse else pure c
  | _ => refuse

/-- One member of a class: a character, an escaped class, or a range. A hyphen before the closing
bracket or another hyphen makes no range. -/
def readRange : Parser Class := do
  let first ← readMember
  skipSpace
  let c ← peek
  let s ← get
  let behind := if s.flags.spaced then behindSpace false s.rest.tail else s.rest.tail
  if c ≠ '-' || behind.head? = some ']' || behind.head? = some '-' then
    match first with
    | .set inner => pure inner
    | _ => pure (.single (← classLiteral first))
  else
    skipAll
    let last ← readMember
    let first ← classLiteral first
    let last ← classLiteral last
    if last < first then refuse
    pure (.range first.toNat last.toNat)

/-- The hyphens that stand first in a class; they are characters. -/
def readHyphens : Nat → Parser Bool
  | 0 => pure false
  | fuel + 1 => do
    if (← peek) = '-' then
      skipAll
      discard (readHyphens fuel)
      pure true
    else pure false

mutual

/-- A class in brackets. -/
def readClass : Nat → Parser Class
  | 0 => refuse
  | fuel + 1 => do
    skipAll
    let negated := (← peek) = '^'
    if negated then skipAll
    let hyphen ← readHyphens fuel
    let bracket := !hyphen && (← peek) = ']'
    if bracket then skipAll
    let start : Class :=
      if hyphen then .single '-' else if bracket then .single ']' else .none
    let inner ← readMembers fuel none start
    narrowed (flagged (← get).flags negated inner)

/-- The members of a class up to its closing bracket: `before` is the part before an operation,
`members` those behind it so far. -/
def readMembers : Nat → Option (Class × Operation) → Class → Parser Class
  | 0, _, _ => refuse
  | fuel + 1, before, members => do
    skipSpace
    let s ← get
    match operation? s.rest with
    | some operation =>
      skip
      skip
      readMembers fuel (some (combine s.flags before members, operation)) .none
    | none =>
      match ← peek with
      | '[' =>
        match ← readAsciiClass? with
        | some inner => readMembers fuel before (.union members inner)
        | none => do
          let inner ← readClass fuel
          readMembers fuel before (.union members inner)
      | ']' =>
        skip
        pure (combine s.flags before members)
      | _ => do
        let inner ← readRange
        readMembers fuel before (.union members inner)

end

/-! ### Expressions -/

/-- The expression of one character. -/
def literalExpr (c : Char) : Parser Expr := do
  let flags := (← get).flags
  if !flags.wide && c.toNat > 127 then refuse
  pure (.char (flagged flags false (.single c)))

/-- The characters that a dot stands for. -/
def dotClass (flags : Flags) : Class :=
  if flags.dotAll then .any
  else if flags.crlf then .complement (.union (.single '\n') (.single '\r'))
  else .complement (.single '\n')

/-- The expression of a token. -/
def Token.expr : Token → Parser Expr
  | literal c => literalExpr c
  | anchor condition => pure (.anchor condition)
  | set inner => pure (.char inner)
  | dot => do
    let flags := (← get).flags
    if !flags.wide then refuse
    pure (.char (dotClass flags))

/-- A character, a dot, an anchor or an escape. -/
def readToken : Parser Token := do
  let c ← peek
  let flags := (← get).flags
  match c with
  | '\\' => readEscape
  | '.' =>
    skip
    pure .dot
  | '^' =>
    skip
    pure (.anchor (if flags.lines then .lineStart flags.crlf else .textStart))
  | '$' =>
    skip
    pure (.anchor (if flags.lines then .lineEnd flags.crlf else .textEnd))
  | c =>
    skip
    pure (.literal c)

/-- The largest number of rounds that may be written. -/
def maxRounds : Nat := 4294967295

/-- A number of rounds, if digits come next; white space may stand around it. -/
def readCount? : Parser (Option Nat) := do
  modify fun s => { s with rest := s.rest.dropWhile Text.isBlank }
  let digits ← takeWhile fun c => '0' ≤ c && c ≤ '9'
  modify fun s => { s with rest := s.rest.dropWhile Text.isBlank }
  skipSpace
  if digits.isEmpty then pure none
  else
    let n := digits.foldl (fun n c => n * 10 + (c.toNat - 48)) 0
    if n > maxRounds then refuse else pure (some n)

/-- The least and largest number of rounds in braces. -/
def readBounds : Parser (Nat × Option Nat) := do
  skipAll
  let least? ← readCount?
  let bounds ←
    if (← peek) = ',' then do
      skipAll
      if (← peek) = '\x7d' then do
        pure (← demand least?, none)
      else do
        let least ← demand least?
        let most ← demand (← readCount?)
        pure (least, some most)
    else do
      let least ← demand least?
      pure (least, some least)
  expect '\x7d'
  skipSpace
  match bounds with
  | (least, some most) => if least > most then refuse else pure bounds
  | _ => pure bounds

/-- Letters that may be flags. -/
def isFlag (c : Char) : Bool := "imsUuRx".toList.contains c

/-- Flags up to a colon or a closing parenthesis: the letters before and behind a minus sign.
`negated` says that the sign has come. -/
def readFlags : Nat → Bool → List Char → Parser Flags
  | 0, _, _ => refuse
  | fuel + 1, negated, seen => do
    let c ← peek
    if c = ':' || c = ')' then
      if seen.head? = some '-' then refuse else pure (← get).flags
    else if c = '-' then
      if negated then refuse
      skip
      readFlags fuel true ('-' :: seen)
    else
      if !isFlag c || seen.contains c then refuse
      skip
      let later ← readFlags fuel negated (c :: seen)
      pure (later.set c (!negated))

/-- Whether a character may stand in the name of a group. -/
def isNameChar (first : Bool) (c : Char) : Bool :=
  c == '_' || Text.alphabetic.contains c.toNat
    || (!first && (c == '.' || c == '[' || c == ']' || isNumeric c))
where
  isNumeric (c : Char) : Bool :=
    (category? "n").any fun numbers => numbers.contains c

/-- The name of a group behind its opening angle bracket. Names do not repeat. -/
def readName : Parser Unit := do
  let s ← get
  let name := s.rest.takeWhile (· ≠ '>')
  match s.rest.dropWhile (· ≠ '>'), name with
  | _ :: rest, first :: others =>
    let text := String.ofList name
    if isNameChar true first && others.all (isNameChar false) && !s.names.contains text then
      set { s with rest, names := text :: s.names }
    else refuse
  | _, _ => refuse

/-- What an opening parenthesis begins. -/
inductive Opening where
  /-- A group with flags of its own. -/
  | group (flags : Flags)
  /-- Flags for the rest of the group around. -/
  | flags (flags : Flags)

/-- What stands between an opening parenthesis and the content of its group. -/
def readOpening : Parser Opening := do
  skip
  skipSpace
  let s ← get
  let starts (text : String) := text.toList.isPrefixOf s.rest
  if starts "?=" || starts "?!" || starts "?<=" || starts "?<!" then refuse
  if (← skipIf "?P<") || (← skipIf "?<") then
    readName
    pure (.group s.flags)
  else if ← skipIf "?" then
    let empty := (← peek?) = some ')'
    let flags ← readFlags (s.rest.length + 1) false []
    if (← peek) = ')' then
      if empty then refuse
      skip
      pure (.flags flags)
    else
      skip
      pure (.group flags)
  else pure (.group s.flags)

/-- The items of a branch, the last one first, in a row. An item without expression is a change of
flags. -/
def inRow (items : List (Option Expr)) : Expr :=
  items.foldl (fun row item => match item with
    | some item => match row with
      | .empty => item
      | row => .seq item row
    | none => row) .empty

/-- The branches so far with one more. -/
def withBranch (earlier : Option Expr) (items : List (Option Expr)) : Expr :=
  match earlier with
  | some earlier => .alt earlier (inRow items)
  | none => inRow items

/-- Repeat the last item; a question mark behind changes nothing that matters here. -/
def repeated (items : List (Option Expr)) (bounds : Nat × Option Nat) :
    Parser (List (Option Expr)) := do
  match items with
  | some item :: earlier =>
    discard (skipIf "?")
    pure (some (.rounds item bounds.1 bounds.2) :: earlier)
  | _ => refuse

/-- Refuse the pattern unless there is an item to repeat. -/
def needItem (items : List (Option Expr)) : Parser Unit :=
  match items with
  | some _ :: _ => pure ()
  | _ => refuse

/-- The alternatives up to the end of the group or text: `earlier` are the branches before, `items`
those of the branch being read, the last one first. -/
def readBranches : Nat → Option Expr → List (Option Expr) → Parser Expr
  | 0, _, _ => refuse
  | fuel + 1, earlier, items => do
    skipSpace
    match ← peek? with
    | none => pure (withBranch earlier items)
    | some ')' => pure (withBranch earlier items)
    | some '|' =>
      skip
      readBranches fuel (some (withBranch earlier items)) []
    | some '(' =>
      match ← readOpening with
      | .flags flags =>
        modify fun s => { s with flags }
        readBranches fuel earlier (none :: items)
      | .group inner =>
        let outer := (← get).flags
        modify fun s => { s with flags := inner }
        let item ← readBranches fuel none []
        expect ')'
        modify fun s => { s with flags := outer }
        readBranches fuel earlier (some item :: items)
    | some '[' =>
      let inner ← readClass ((← get).rest.length + 1)
      readBranches fuel earlier (some (.char inner) :: items)
    | some '?' =>
      skip
      readBranches fuel earlier (← repeated items (0, some 1))
    | some '*' =>
      skip
      readBranches fuel earlier (← repeated items (0, none))
    | some '+' =>
      skip
      readBranches fuel earlier (← repeated items (1, none))
    | some '\x7b' =>
      needItem items
      let bounds ← readBounds
      readBranches fuel earlier (← repeated items bounds)
    | some _ =>
      let token ← readToken
      let item ← token.expr
      readBranches fuel earlier (some item :: items)

/-- The expression of a whole text. -/
def readExpr? (text : String) : Option Expr := do
  let chars := text.toList
  let (expr, position) ← readBranches (2 * chars.length + 2) none [] ⟨chars, [], .start⟩
  if position.rest.isEmpty then pure expr else none

end DocumentDb.Pattern

namespace DocumentDb

/-- A pattern that texts are searched for. -/
structure Pattern where
  /-- The text it was read from. -/
  source : String
  expr : Pattern.Expr
deriving Inhabited

namespace Pattern

/-- How many steps a pattern may be written out to. -/
def maxSize : Nat := 10 * Nat.pow 2 20 / 32

/-- The pattern of a text, unless it is malformed or too large. -/
def read? (source : String) : Option Pattern := do
  let expr ← readExpr? source
  if expr.size > maxSize then none else pure ⟨source, expr⟩

/-- Whether the pattern matches somewhere in a text. -/
def matchesText (pattern : Pattern) (text : String) : Bool := pattern.expr.matchesIn text.toList

end Pattern

end DocumentDb
