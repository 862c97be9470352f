/-!
# Segments

Texts that are split at a separator character and joined again.
-/

namespace DocumentDb.Text

/-- The pieces between the occurrences of a character; there is always at least one. -/
def splitAt (separator : Char) (text : String) : List String :=
  (text.toList.splitOn separator).map String.ofList

/-- The pieces of a text with a separator between them. -/
def joinWith (separator : String) (pieces : List String) : String := separator.intercalate pieces

/-- The text behind a given beginning, if it begins so. -/
def afterStart? (start text : String) : Option String :=
  go start.toList text.toList
where
  go : List Char → List Char → Option String
    | [], rest => some (String.ofList rest)
    | _, [] => none
    | a :: as, b :: bs => if a = b then go as bs else none

/-- A number in decimal with zeros in front up to a width. -/
def padded (width n : Nat) : String :=
  let digits := toString n
  String.ofList (List.replicate (width - digits.length) '0') ++ digits

end DocumentDb.Text
