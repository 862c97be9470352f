/-!
# Tokens of YAML text

The text is cut into tokens from left to right. The indentation of lines opens and closes block
collections, so tokens stand for the beginning and the end of those too. Whether a scalar or flow
collection is a key is known only at the colon behind it; its place is kept until then and the
tokens that make it a key are put in front of it.
-/

namespace DocumentDb.Yaml

/-- A token. -/
inductive Token where
  | documentStart
  | documentEnd
  /-- A line that names the version of the language. -/
  | version
  | sequenceStart
  | mappingStart
  /-- The end of a block collection. -/
  | blockEnd
  | flowSequenceStart
  | flowSequenceEnd
  | flowMappingStart
  | flowMappingEnd
  /-- A hyphen before an item. -/
  | item
  /-- A comma. -/
  | comma
  /-- What follows is a key. -/
  | key
  /-- What follows is the value of a key. -/
  | value
  | anchor (name : String)
  | alias (name : String)
  /-- A scalar; it is plain if it stands without quotes and is no block. -/
  | scalar (plain : Bool) (text : String)
deriving DecidableEq, Repr, Inhabited

/-! ### Characters -/

/-- Whether a character ends a line. Other line ends are brought to line feeds beforehand. -/
def isBreak (c : Char) : Bool := c == '\n' || c == '\u2028' || c == '\u2029'

/-- Whether a character is a space or a tab. -/
def isBlank (c : Char) : Bool := c == ' ' || c == '\t'

/-- Whether a line, a word or the text ends before the rest of a text. -/
def atGap : List Char → Bool
  | [] => true
  | c :: _ => isBlank c || isBreak c

/-- Whether a text begins with a mark between documents. -/
def isDocumentMark (c : Char) (rest : List Char) : Bool :=
  rest.take 3 == [c, c, c] && atGap (rest.drop 3)

/-- Whether a character may stand in a text. -/
def isPrintable (c : Char) : Bool :=
  let n := c.toNat
  n == 9 || n == 10 || n == 13 || (0x20 ≤ n && n ≤ 0x7E) || n == 0x85
    || (0xA0 ≤ n && n ≤ 0xD7FF) || (0xE000 ≤ n && n ≤ 0xFFFD) || 0x10000 ≤ n

/-- The text with every line ended by a line feed. -/
def unifyBreaks : List Char → List Char
  | '\r' :: '\n' :: rest => '\n' :: unifyBreaks rest
  | '\r' :: rest => '\n' :: unifyBreaks rest
  | '\u0085' :: rest => '\n' :: unifyBreaks rest
  | c :: rest => c :: unifyBreaks rest
  | [] => []

/-- A place in a text: what is left of it, and the place counted in characters and in lines. -/
structure Cursor where
  rest : List Char
  index : Nat := 0
  line : Nat := 0
  column : Nat := 0
deriving Inhabited

namespace Cursor

/-- The place behind the next character. -/
def next (pos : Cursor) : Cursor :=
  match pos.rest with
  | [] => pos
  | c :: rest =>
    if isBreak c then ⟨rest, pos.index + 1, pos.line + 1, 0⟩
    else ⟨rest, pos.index + 1, pos.line, pos.column + 1⟩

/-- The place behind several characters. -/
def skip : Nat → Cursor → Cursor
  | 0, pos => pos
  | count + 1, pos => skip count pos.next

/-- The place behind the characters that pass a test. -/
def skipWhile (test : Char → Bool) (pos : Cursor) : Cursor :=
  skip (pos.rest.takeWhile test).length pos

end Cursor

/-! ### Scalars -/

/-- The blanks and line breaks between two words of a scalar, the last ones first. -/
structure Gap where
  /-- The blanks before the first line break. -/
  blanks : List Char := []
  /-- Whether a line ends in the gap. -/
  broken : Bool := false
  /-- The first line break; none if a backslash stands before it. -/
  first : List Char := []
  /-- The further line breaks. -/
  breaks : List Char := []

namespace Gap

/-- The gap with one more blank or line break; blanks at the beginning of a line do not count. -/
def add (gap : Gap) (c : Char) : Gap :=
  if isBreak c then
    if gap.broken then { gap with breaks := c :: gap.breaks } else ⟨[], true, [c], []⟩
  else if gap.broken then gap
  else { gap with blanks := c :: gap.blanks }

/-- What the gap contributes to the text: a single line break becomes a space. -/
def folded (gap : Gap) : List Char :=
  if !gap.broken then gap.blanks
  else if gap.first = ['\n'] then (if gap.breaks.isEmpty then [' '] else gap.breaks)
  else gap.breaks ++ gap.first

end Gap

/-- Whether a plain scalar ends before the rest of a text inside a word. -/
def endsPlain (flow : Bool) : List Char → Bool
  | ':' :: rest => atGap rest
  | c :: _ => flow && (c == ',' || c == '[' || c == ']' || c == '\x7b' || c == '\x7d')
  | [] => true

/-- Whether a colon inside a plain scalar of a flow collection has no place there. -/
def isStrayColon : List Char → Bool
  | ':' :: c :: _ => c == ',' || c == '?' || c == '[' || c == ']' || c == '\x7b' || c == '\x7d'
  | _ => false

/-- A plain scalar: `done` are its characters so far, the last one first, and `gap` the gap behind
them, if there is one. The text, the place behind it and whether a line ended there. -/
def scanPlain (flow : Bool) (indent : Nat) :
    Nat → List Char → Option Gap → Cursor → Option (String × Cursor × Bool)
  | 0, _, _, _ => none
  | fuel + 1, done, gap?, pos =>
    let finish := (String.ofList done.reverse, pos, (gap?.map (·.broken)).getD false)
    match pos.rest with
    | [] => some finish
    | c :: _ =>
      if isBlank c || isBreak c then
        let gap := gap?.getD {}
        if gap.broken && pos.column < indent && c = '\t' then none
        else scanPlain flow indent fuel done (some (gap.add c)) pos.next
      else
        let stops := match gap? with
          | some _ =>
            (!flow && pos.column < indent) || c == '#'
              || (pos.column == 0 && (isDocumentMark '-' pos.rest || isDocumentMark '.' pos.rest))
          | none => false
        if stops then some finish
        else if flow && isStrayColon pos.rest then none
        else if endsPlain flow pos.rest then some finish
        else
          let between := (gap?.map Gap.folded).getD []
          scanPlain flow indent fuel (c :: (between ++ done)) none pos.next

/-- The value of a hexadecimal digit. -/
def hexDigit? (c : Char) : Option Nat :=
  if '0' ≤ c && c ≤ '9' then some (c.toNat - 48)
  else if 'a' ≤ c && c ≤ 'f' then some (c.toNat - 87)
  else if 'A' ≤ c && c ≤ 'F' then some (c.toNat - 55)
  else none

/-- The character of an escape of one letter. -/
def letterEscape? (c : Char) : Option Char :=
  match c with
  | '0' => some (Char.ofNat 0)
  | 'a' => some (Char.ofNat 7)
  | 'b' => some (Char.ofNat 8)
  | 't' | '\t' => some '\t'
  | 'n' => some '\n'
  | 'v' => some (Char.ofNat 11)
  | 'f' => some (Char.ofNat 12)
  | 'r' => some '\r'
  | 'e' => some (Char.ofNat 27)
  | ' ' => some ' '
  | '"' => some '"'
  | '/' => some '/'
  | '\\' => some '\\'
  | 'N' => some '\u0085'
  | '_' => some '\u00a0'
  | 'L' => some '\u2028'
  | 'P' => some '\u2029'
  | _ => none

/-- The number of hexadecimal digits behind an escape. -/
def codeLength? (c : Char) : Option Nat :=
  match c with
  | 'x' => some 2
  | 'u' => some 4
  | 'U' => some 8
  | _ => none

/-- The character of an escape, and how many characters stand behind the backslash for it. -/
def escape? : List Char → Option (Char × Nat)
  | [] => none
  | c :: rest =>
    match letterEscape? c, codeLength? c with
    | some character, _ => some (character, 1)
    | none, some length => do
      let digits ← (rest.take length).mapM hexDigit?
      let code := digits.foldl (fun n digit => n * 16 + digit) 0
      if digits.length < length || (0xD800 ≤ code && code ≤ 0xDFFF) || code > 0x10FFFF then none
      else some (Char.ofNat code, length + 1)
    | none, none => none

/-- The rest of a quoted scalar behind its opening quote. -/
def scanQuoted (quote : Char) : Nat → List Char → Option Gap → Cursor → Option (String × Cursor)
  | 0, _, _, _ => none
  | fuel + 1, done, gap?, pos =>
    match pos.rest with
    | [] => none
    | c :: rest =>
      if isBlank c || isBreak c then
        scanQuoted quote fuel done (some ((gap?.getD {}).add c)) pos.next
      else
        let done := (gap?.map Gap.folded).getD [] ++ done
        if pos.column = 0 && (isDocumentMark '-' pos.rest || isDocumentMark '.' pos.rest) then none
        else if c = quote then
          if quote = '\'' && rest.head? = some quote then
            scanQuoted quote fuel (c :: done) none (pos.skip 2)
          else some (String.ofList done.reverse, pos.next)
        else if quote = '"' && c = '\\' then
          if (rest.head?.map isBreak).getD false then
            scanQuoted quote fuel done (some { broken := true }) (pos.skip 2)
          else match escape? rest with
            | some (character, length) =>
              scanQuoted quote fuel (character :: done) none (pos.skip (length + 1))
            | none => none
        else scanQuoted quote fuel (c :: done) none pos.next

/-- The indentation of a block scalar. -/
inductive Indentation where
  | known (width : Nat)
  /-- The deepest line of blanks so far. -/
  | unknown (deepest : Nat)

/-- Pass over the indentation and the empty lines before the next line of a block scalar. The first
line that is not empty fixes the indentation. -/
def skipEmptyLines (least : Nat) : Nat → Indentation → List Char → Cursor →
    Option (Nat × List Char × Cursor)
  | 0, _, _, _ => none
  | fuel + 1, indentation, breaks, pos =>
    let (more, deepest) : Bool × Nat := match indentation with
      | .known width => (pos.column < width, width)
      | .unknown deepest => (true, max deepest pos.column)
    match pos.rest with
    | ' ' :: _ =>
      if more then
        let indentation := match indentation with
          | .known width => .known width
          | .unknown _ => .unknown deepest
        skipEmptyLines least fuel indentation breaks pos.next
      else some (deepest, breaks, pos)
    | '\t' :: _ => if more then none else some (deepest, breaks, pos)
    | c :: _ =>
      if isBreak c then
        let indentation := match indentation with
          | .known width => .known width
          | .unknown _ => .unknown deepest
        skipEmptyLines least fuel indentation (c :: breaks) pos.next
      else some (fixed indentation deepest, breaks, pos)
    | [] => some (fixed indentation deepest, breaks, pos)
where
  fixed (indentation : Indentation) (deepest : Nat) : Nat :=
    match indentation with
    | .known width => width
    | .unknown _ => max deepest (max least 1)

/-- What happens to the line breaks at the end of a block scalar. -/
inductive Chomping where
  | strip
  | clip
  | keep
deriving DecidableEq

/-- The lines of a block scalar. `done` is the text so far, `pending` the break behind the last line
and `breaks` those of the empty lines behind it, all with the last character first; `wasBlank` says
whether the last line began with a blank. -/
def scanLines (literal : Bool) (chomping : Chomping) (width : Nat) :
    Nat → List Char → List Char → List Char → Bool → Cursor → Option (String × Cursor)
  | 0, _, _, _, _, _ => none
  | fuel + 1, done, pending, breaks, wasBlank, pos =>
    if pos.column ≠ width || pos.rest.isEmpty then
      let done := if chomping = .strip then done else pending ++ done
      let done := if chomping = .keep then breaks ++ done else done
      some (String.ofList done.reverse, pos)
    else
      let blank := (pos.rest.head?.map isBlank).getD false
      let joint :=
        if !literal && pending == ['\n'] && !wasBlank && !blank then
          if breaks.isEmpty then [' '] else breaks
        else breaks ++ pending
      let line := pos.rest.takeWhile (!isBreak ·)
      let atEnd := pos.skip line.length
      let pending := (atEnd.rest.take 1)
      match skipEmptyLines 0 (atEnd.rest.length + 1) (.known width) [] atEnd.next with
      | some (_, breaks, pos) =>
        scanLines literal chomping width fuel (line.reverse ++ (joint ++ done)) pending breaks blank
          pos
      | none => none

/-- The signs behind the indicator of a block scalar, in either order: what happens to the line
breaks at the end, and how many columns deeper than its parent the scalar is indented. -/
def blockHeader? (pos : Cursor) : Option (Chomping × Nat × Cursor) :=
  let chomping? (c : Char) := if c = '+' then some Chomping.keep
    else if c = '-' then some Chomping.strip else none
  let width? (c : Char) := if '0' ≤ c && c ≤ '9' then some (c.toNat - 48) else none
  match pos.rest with
  | a :: b :: _ =>
    match chomping? a, width? a, chomping? b, width? b with
    | some chomping, _, _, some width => checked chomping width (pos.skip 2)
    | some chomping, _, _, none => some (chomping, 0, pos.next)
    | none, some width, some chomping, _ => checked chomping width (pos.skip 2)
    | none, some width, none, _ => checked .clip width pos.next
    | none, none, _, _ => some (.clip, 0, pos)
  | [a] =>
    match chomping? a, width? a with
    | some chomping, _ => some (chomping, 0, pos.next)
    | none, some width => checked .clip width pos.next
    | none, none => some (.clip, 0, pos)
  | [] => some (.clip, 0, pos)
where
  checked (chomping : Chomping) (width : Nat) (pos : Cursor) : Option (Chomping × Nat × Cursor) :=
    if width = 0 then none else some (chomping, width, pos)

/-- A block scalar behind its indicator; `parent` is the indentation around it. -/
def scanBlock (literal : Bool) (parent : Int) (pos : Cursor) : Option (String × Cursor) := do
  let (chomping, added, pos) ← blockHeader? pos
  let pos := pos.skipWhile isBlank
  let pos := if pos.rest.head? = some '#' then pos.skipWhile (!isBreak ·) else pos
  if !((pos.rest.head?.map isBreak).getD true) then none
  let pos := pos.next
  let fuel := pos.rest.length + 2
  let start := if added > 0 then .known (parent.toNat + added) else .unknown 0
  let (width, breaks, pos) ← skipEmptyLines (parent + 1).toNat fuel start [] pos
  scanLines literal chomping width fuel [] [] breaks false pos

/-! ### The scanner -/

/-- A place where a key may have begun. -/
structure KeyPlace where
  /-- Whether nothing else can stand there. -/
  required : Bool
  /-- The number of tokens before it. -/
  tokens : Nat
  index : Nat
  line : Nat
  column : Nat

/-- A text that is being cut into tokens. -/
structure Scanner where
  cursor : Cursor
  tokens : Array Token := #[]
  /-- The indentation of the innermost block collection; below zero outside of all. -/
  indent : Int := -1
  /-- The indentations around it. -/
  outer : List Int := []
  /-- Whether a key may begin at the next token. -/
  keyAllowed : Bool := true
  /-- Where a key may have begun, in the innermost flow collection first. -/
  places : List (Option KeyPlace) := [none]

namespace Scanner

/-- Whether the place is inside a flow collection. -/
def inFlow (s : Scanner) : Bool := s.places.length > 1

/-- Add a token. -/
def push (s : Scanner) (token : Token) : Scanner := { s with tokens := s.tokens.push token }

/-- Pass over characters. -/
def skip (s : Scanner) (count : Nat) : Scanner := { s with cursor := s.cursor.skip count }

/-- Pass over white space, comments and line ends. -/
def skipSpace : Nat → Scanner → Scanner
  | 0, s => s
  | fuel + 1, s =>
    let tabs := s.inFlow || !s.keyAllowed
    let pos := s.cursor.skipWhile fun c => c == ' ' || (tabs && c == '\t')
    let pos := if pos.rest.head? = some '#' then pos.skipWhile (!isBreak ·) else pos
    match pos.rest with
    | c :: _ =>
      if isBreak c then
        skipSpace fuel
          { s with cursor := pos.next, keyAllowed := if s.inFlow then s.keyAllowed else true }
      else { s with cursor := pos }
    | [] => { s with cursor := pos }

/-- How far behind its beginning the colon of a key may stand. -/
def keyReach : Nat := 1024

/-- Forget the places that can no longer be keys, which must not be required. -/
def dropStale (s : Scanner) : Option Scanner := do
  let places ← s.places.mapM fun place? => match place? with
    | some place =>
      if place.line < s.cursor.line || place.index + keyReach < s.cursor.index then
        if place.required then none else some none
      else some (some place)
    | none => some none
  pure { s with places }

/-- Forget the place of a key in the innermost collection, which must not be required. -/
def dropKey (s : Scanner) : Option Scanner :=
  match s.places with
  | some place :: rest => if place.required then none else some { s with places := none :: rest }
  | _ => some s

/-- Remember that a key may begin here. -/
def saveKey (s : Scanner) : Option Scanner :=
  if s.keyAllowed then do
    let required := !s.inFlow && s.indent == s.cursor.column
    let s ← s.dropKey
    let place : KeyPlace :=
      ⟨required, s.tokens.size, s.cursor.index, s.cursor.line, s.cursor.column⟩
    pure { s with places := some place :: s.places.tail }
  else some s

/-- Close the block collections that are indented deeper than a column. -/
def unroll (column : Int) (s : Scanner) : Scanner :=
  if s.inFlow then s
  else
    let closed := (s.indent :: s.outer).takeWhile (· > column)
    let left := (s.indent :: s.outer).dropWhile (· > column)
    { s with
      tokens := closed.foldl (fun tokens _ => tokens.push .blockEnd) s.tokens
      indent := left.headD (-1)
      outer := left.tail }

/-- Open a block collection at a column deeper than the one around; its token becomes the one of a
given number. -/
def roll (column number : Nat) (token : Token) (s : Scanner) : Scanner :=
  if s.inFlow || s.indent ≥ column then s
  else
    { s with
      tokens := s.tokens.insertIdxIfInBounds number token
      indent := column
      outer := s.indent :: s.outer }

/-- The beginning of a flow collection. -/
def openFlow (token : Token) (s : Scanner) : Option Scanner := do
  let s ← s.saveKey
  pure { (s.push token).skip 1 with places := none :: s.places, keyAllowed := true }

/-- The end of a flow collection. -/
def closeFlow (token : Token) (s : Scanner) : Option Scanner := do
  let s ← s.dropKey
  let places := if s.inFlow then s.places.tail else s.places
  pure { (s.push token).skip 1 with places, keyAllowed := false }

/-- A mark between documents. -/
def documentMark (token : Token) (s : Scanner) : Option Scanner := do
  let s ← (s.unroll (-1)).dropKey
  pure { (s.push token).skip 3 with keyAllowed := false }

/-- A hyphen before an item. -/
def hyphen (s : Scanner) : Option Scanner := do
  if !s.inFlow && !s.keyAllowed then none
  let s := s.roll s.cursor.column s.tokens.size .sequenceStart
  let s ← s.dropKey
  pure { (s.push .item).skip 1 with keyAllowed := true }

/-- A question mark before a key. -/
def questionMark (s : Scanner) : Option Scanner := do
  if !s.inFlow && !s.keyAllowed then none
  let s := s.roll s.cursor.column s.tokens.size .mappingStart
  let s ← s.dropKey
  pure { (s.push .key).skip 1 with keyAllowed := !s.inFlow }

/-- A colon behind a key. -/
def colon (s : Scanner) : Option Scanner :=
  match s.places with
  | some place :: rest =>
    let s := { s with tokens := s.tokens.insertIdxIfInBounds place.tokens .key }
    let s := s.roll place.column place.tokens .mappingStart
    some { (s.push .value).skip 1 with places := none :: rest, keyAllowed := false }
  | _ =>
    if !s.inFlow && !s.keyAllowed then none
    else
      let s := s.roll s.cursor.column s.tokens.size .mappingStart
      some { (s.push .value).skip 1 with keyAllowed := !s.inFlow }

/-- The name of an anchor or alias. -/
def named (token : String → Token) (s : Scanner) : Option Scanner := do
  let s ← s.saveKey
  let s := s.skip 1
  let name := s.cursor.rest.takeWhile fun c => c.isAlphanum || c == '_' || c == '-'
  let behind := s.cursor.rest.drop name.length
  let mayFollow := match behind with
    | [] => true
    | c :: _ => isBlank c || isBreak c || "?:,]\x7d%@\x60".toList.contains c
  if name.isEmpty || !mayFollow then none
  pure { (s.push (token (String.ofList name))).skip name.length with keyAllowed := false }

/-- A line at the beginning that names version 1.1 or 1.2 of the language. -/
def directive (s : Scanner) : Option Scanner := do
  let s ← (s.unroll (-1)).dropKey
  let line := s.cursor.rest.takeWhile (!isBreak ·)
  let text := line.takeWhile (· ≠ '#')
  let words := (String.ofList text).splitOn " " |>.filter (!·.isEmpty)
  if words = ["%YAML", "1.1"] || words = ["%YAML", "1.2"] then
    pure { (s.push .version).skip line.length with keyAllowed := false }
  else none

/-- A quoted scalar. -/
def quoted (quote : Char) (s : Scanner) : Option Scanner := do
  let s ← s.saveKey
  let (text, cursor) ← scanQuoted quote (s.cursor.rest.length + 1) [] none s.cursor.next
  pure { s.push (.scalar false text) with cursor, keyAllowed := false }

/-- A plain scalar. -/
def plain (s : Scanner) : Option Scanner := do
  let s ← s.saveKey
  let (text, cursor, broken) ←
    scanPlain s.inFlow (s.indent + 1).toNat (s.cursor.rest.length + 1) [] none s.cursor
  pure { s.push (.scalar true text) with cursor, keyAllowed := broken }

/-- A block scalar. -/
def block (literal : Bool) (s : Scanner) : Option Scanner := do
  let s ← s.dropKey
  let (text, cursor) ← scanBlock literal s.indent s.cursor.next
  pure { s.push (.scalar false text) with cursor, keyAllowed := true }

/-- Whether a plain scalar can begin with a character before the rest of the text. -/
def beginsPlain (flow : Bool) (c : Char) (rest : List Char) : Bool :=
  if c = '-' then !((rest.head?.map isBlank).getD false)
  else if c = '?' || c = ':' then !flow && !atGap rest
  else !isBlank c && !",[]\x7b\x7d#&*!|>'\"%@\x60".toList.contains c

/-- The next token, which begins with a given character. -/
def step (c : Char) (rest : List Char) (s : Scanner) : Option Scanner :=
  let start := s.cursor.column == 0
  if start && c = '%' then s.directive
  else if start && isDocumentMark '-' (c :: rest) then s.documentMark .documentStart
  else if start && isDocumentMark '.' (c :: rest) then s.documentMark .documentEnd
  else if c = '[' then s.openFlow .flowSequenceStart
  else if c = '\x7b' then s.openFlow .flowMappingStart
  else if c = ']' then s.closeFlow .flowSequenceEnd
  else if c = '\x7d' then s.closeFlow .flowMappingEnd
  else if c = ',' then do
    let s ← s.dropKey
    pure { (s.push .comma).skip 1 with keyAllowed := true }
  else if c = '-' && atGap rest then s.hyphen
  else if c = '?' && (s.inFlow || atGap rest) then s.questionMark
  else if c = ':' && (s.inFlow || atGap rest) then s.colon
  else if c = '*' then s.named .alias
  else if c = '&' then s.named .anchor
  else if c = '|' && !s.inFlow then s.block true
  else if c = '>' && !s.inFlow then s.block false
  else if c = '\'' || c = '"' then s.quoted c
  else if beginsPlain s.inFlow c rest then s.plain
  else none

/-- The tokens up to the end of the text. Each step passes over a character. -/
def run : Nat → Scanner → Option (List Token)
  | 0, _ => none
  | fuel + 1, s =>
    let s := s.skipSpace (s.cursor.rest.length + 1)
    match s.dropStale with
    | none => none
    | some s =>
      let s := s.unroll s.cursor.column
      match s.cursor.rest with
      | [] => ((s.unroll (-1)).dropKey).map (·.tokens.toList)
      | c :: rest => match s.step c rest with
        | some s => run fuel s
        | none => none

end Scanner

/-- The tokens of a text, unless it is malformed. -/
def Token.scan? (text : String) : Option (List Token) :=
  let chars := text.toList
  if !chars.all isPrintable then none
  else
    let chars := match chars with
      | '\uFEFF' :: rest => rest
      | all => all
    Scanner.run (chars.length + 1) { cursor := { rest := unifyBreaks chars } }

end DocumentDb.Yaml
