/-!
# White space

The characters with the white-space property, and cutting them off the ends of a text.
-/

namespace DocumentDb.Text

/-- Whether a character has the white-space property of the Unicode standard. -/
def isBlank (c : Char) : Bool :=
  let n := c.toNat
  (9 ≤ n && n ≤ 13) || n == 32 || n == 0x85 || n == 0xA0 || n == 0x1680
    || (0x2000 ≤ n && n ≤ 0x200A) || n == 0x2028 || n == 0x2029 || n == 0x202F || n == 0x205F
    || n == 0x3000

/-- The characters without the blanks at the end. -/
def trimEndChars (text : List Char) : List Char :=
  (text.reverse.dropWhile isBlank).reverse

/-- The characters without the blanks at both ends. -/
def trimChars (text : List Char) : List Char := trimEndChars (text.dropWhile isBlank)

/-- The text without the blanks at both ends. -/
def trim (text : String) : String := String.ofList (trimChars text.toList)

end DocumentDb.Text
