namespace FiniteAutomata
namespace Text

/-!
# Splitting at marks

`splitAt mark` cuts a text at every occurrence of a character and
`splitArrows` at every occurrence of the arrow written with a hyphen and a
greater-than sign.  Both give one piece more than there are marks, so a text
without a mark is its own only piece.
-/

/-- Put a character in front of the first piece. -/
def consPiece (c : Char) : List (List Char) → List (List Char)
  | [] => [[c]]
  | piece :: rest => (c :: piece) :: rest

/-- The pieces of a text between the occurrences of a character. -/
def splitAt (mark : Char) : List Char → List (List Char)
  | [] => [[]]
  | c :: rest => if c = mark then [] :: splitAt mark rest else consPiece c (splitAt mark rest)

/-- The pieces of a text between its arrows, found from left to right without
overlap. -/
def splitArrows : List Char → List (List Char)
  | [] => [[]]
  | '-' :: '>' :: rest => [] :: splitArrows rest
  | c :: rest => consPiece c (splitArrows rest)

/-- The texts before and after the first occurrence of a character. -/
def cutAt (mark : Char) : List Char → Option (List Char × List Char)
  | [] => none
  | c :: rest =>
    if c = mark then some ([], rest)
    else (cutAt mark rest).map fun parts => (c :: parts.1, parts.2)

/-- Whether a text occurs in another, at any place. -/
def contains (part : List Char) : List Char → Bool
  | [] => part.isEmpty
  | c :: rest => part.isPrefixOf (c :: rest) || contains part rest

/-- What follows a leading text, if the text leads. -/
def after? (lead text : List Char) : Option (List Char) :=
  if lead.isPrefixOf text then some (text.drop lead.length) else none

/-- Pieces put together with a text between each two. -/
def joined (between : String) (pieces : List String) : String :=
  between.intercalate pieces

end Text
end FiniteAutomata
