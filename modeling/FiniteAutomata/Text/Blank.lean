namespace FiniteAutomata
namespace Text

/-!
# Blank characters and trimming

A text is trimmed at both ends of its blank characters.  Two classes are kept
apart.  `isSpace` is the white space property of the character standard;
`isBlank` also takes in the four information separators U+001C to U+001F,
which separate records and so carry no text of their own.  Zero width
characters belong to neither class.

Everything is defined on lists of characters; `trim` and `isTrimmed` are the
same notions on strings.
-/

/-- White space: the controls U+0009 to U+000D, the space, and the wider
spaces and separators of the standard. -/
def isSpace (c : Char) : Bool :=
  let code := c.toNat
  (9 ≤ code && code ≤ 13) || code == 0x20 || code == 0x85 || code == 0xA0 || code == 0x1680 ||
    (0x2000 ≤ code && code ≤ 0x200A) || code == 0x2028 || code == 0x2029 || code == 0x202F ||
    code == 0x205F || code == 0x3000

/-- White space or one of the four information separators. -/
def isBlank (c : Char) : Bool :=
  (0x1C ≤ c.toNat && c.toNat ≤ 0x1F) || isSpace c

/-- Drop the characters of a class at both ends. -/
def stripEnds (drop : Char → Bool) (text : List Char) : List Char :=
  (((text.dropWhile drop).reverse).dropWhile drop).reverse

/-- A text without the blank characters at its ends. -/
def trimmed (text : List Char) : List Char :=
  stripEnds isBlank text

/-- A string without the blank characters at its ends. -/
def trim (text : String) : String :=
  String.ofList (trimmed text.toList)

/-- No blank character stands at either end. -/
def isTrimmed (text : String) : Bool :=
  trim text == text

end Text
end FiniteAutomata
