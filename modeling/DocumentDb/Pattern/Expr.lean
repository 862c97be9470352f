import DocumentDb.Pattern.Class

/-!
# Patterns and where they match

`Expr.reach` says from which positions of a text a pattern leads to which others. A set of
positions is a natural number whose bit `i` stands for the place before the `i`-th character, so
that alternatives join their sets and a repetition joins the sets of its rounds until nothing is
added. Only whether a pattern matches somewhere is asked for, so the order of alternatives and how
much a repetition takes do not matter.
-/

namespace DocumentDb.Pattern

/-- A condition on a place between characters. -/
inductive Anchor where
  | textStart
  | textEnd
  /-- The beginning of a line; `crlf` lets a carriage return end a line as well. -/
  | lineStart (crlf : Bool)
  | lineEnd (crlf : Bool)
  /-- A place with a word character on one side; `ascii` restricts words to ASCII. -/
  | boundary (ascii : Bool)
  | notBoundary (ascii : Bool)
  | wordStart (ascii : Bool)
  | wordEnd (ascii : Bool)
  | wordStartHalf (ascii : Bool)
  | wordEndHalf (ascii : Bool)
deriving Inhabited

/-- A pattern. -/
inductive Expr where
  | empty
  | char (set : Class)
  | anchor (condition : Anchor)
  | seq (a b : Expr)
  | alt (a b : Expr)
  /-- At least `least` rounds, and at most `most` if there is a bound. -/
  | rounds (inner : Expr) (least : Nat) (most : Option Nat)
deriving Inhabited

/-- Whether words are made of the character. -/
def isWord (ascii : Bool) (c : Char) : Bool :=
  if ascii then c.isAlphanum || c == '_' else Text.wordCharacters.contains c.toNat

/-- Whether a condition holds between the characters before and behind a place, if there are any. -/
def Anchor.holds (before behind : Option Char) : Anchor → Bool
  | textStart => before.isNone
  | textEnd => behind.isNone
  | lineStart crlf =>
    before.isNone || before == some '\n'
      || (crlf && before == some '\r' && behind != some '\n')
  | lineEnd crlf =>
    behind.isNone || (behind == some '\n' && !(crlf && before == some '\r'))
      || (crlf && behind == some '\r')
  | boundary ascii => word ascii before != word ascii behind
  | notBoundary ascii => word ascii before == word ascii behind
  | wordStart ascii => !word ascii before && word ascii behind
  | wordEnd ascii => word ascii before && !word ascii behind
  | wordStartHalf ascii => !word ascii before
  | wordEndHalf ascii => !word ascii behind
where
  word (ascii : Bool) (c : Option Char) : Bool := (c.map (isWord ascii)).getD false

/-- The positions at which a condition on the neighbouring characters holds. -/
def placesWhere (text : List Char) (condition : Option Char → Option Char → Bool) : Nat :=
  go none 0 text
where
  go (before : Option Char) (position : Nat) : List Char → Nat
    | [] => if condition before none then 1 <<< position else 0
    | c :: rest =>
      (if condition before (some c) then 1 <<< position else 0)
        ||| go (some c) (position + 1) rest

/-- Join the sets of at most `fuel` further rounds. -/
def accumulate (step : Nat → Nat) : Nat → Nat → Nat
  | 0, places => places
  | fuel + 1, places =>
    let next := places ||| step places
    if next = places then places else accumulate step fuel next

/-- The set after exactly `count` rounds. -/
def iterate (step : Nat → Nat) : Nat → Nat → Nat
  | 0, places => places
  | count + 1, places => iterate step count (step places)

namespace Expr

/-- The positions that a pattern reaches from some of `places`. A set of rounds longer than the
text has a round that stands still, so counts are cut off there. -/
def reach (text : List Char) : Expr → Nat → Nat
  | empty, places => places
  | char set, places =>
    (places &&& placesWhere text fun _ behind => (behind.map set.contains).getD false) <<< 1
  | anchor condition, places =>
    places &&& placesWhere text fun before behind => condition.holds before behind
  | seq a b, places => b.reach text (a.reach text places)
  | alt a b, places => a.reach text places ||| b.reach text places
  | rounds inner least most, places =>
    let bound := text.length + 2
    let first := iterate (inner.reach text) (min least bound) places
    match most with
    | none => accumulate (inner.reach text) bound first
    | some most => accumulate (inner.reach text) (min (most - least) bound) first

/-- Whether the pattern matches somewhere in a text. -/
def matchesIn (pattern : Expr) (text : List Char) : Bool :=
  pattern.reach text (Nat.pow 2 (text.length + 1) - 1) != 0

/-- The number of steps that the rounds of a pattern are written out to. -/
def size : Expr → Nat
  | empty => 1
  | char _ => 1
  | anchor _ => 1
  | seq a b => a.size + b.size
  | alt a b => a.size + b.size + 1
  | rounds inner least most =>
    match most with
    | none => inner.size * (if least = 0 then 1 else least) + 1
    | some most => inner.size * least + (inner.size + 1) * (most - least)

end Expr

end DocumentDb.Pattern
