namespace FiniteAutomata
namespace Text

/-!
# Lines

A line ends at a line break: a line feed, a carriage return, both in this
order as one, a vertical tab, a form feed, one of the information separators
U+001C to U+001E, a next-line control, or one of the separators U+2028 and
U+2029.  The last line needs no break, and a final break begins no further
line.
-/

/-- The characters that end a line. -/
def isLineBreak (c : Char) : Bool :=
  let code := c.toNat
  (0x0A ≤ code && code ≤ 0x0D) || (0x1C ≤ code && code ≤ 0x1E) || code == 0x85 ||
    code == 0x2028 || code == 0x2029

/-- Put a character in front of the first line. -/
def consLine (c : Char) : List (List Char) → List (List Char)
  | [] => [[c]]
  | line :: rest => (c :: line) :: rest

/-- The lines of a text, without their breaks. -/
def lines : List Char → List (List Char)
  | [] => []
  | '\r' :: '\n' :: rest => [] :: lines rest
  | c :: rest => if isLineBreak c then [] :: lines rest else consLine c (lines rest)

/-- A text with every carriage return, alone or before a line feed, written
as a line feed. -/
def normalizeBreaks : List Char → List Char
  | [] => []
  | '\r' :: '\n' :: rest => '\n' :: normalizeBreaks rest
  | c :: rest => (if c = '\r' then '\n' else c) :: normalizeBreaks rest

/-- The pieces that are ended by a line feed, and a last piece without one if
it is not empty. -/
def feedLines : List Char → List (List Char)
  | [] => []
  | c :: rest => if c = '\n' then [] :: feedLines rest else consLine c (feedLines rest)

end Text
end FiniteAutomata
