namespace FiniteAutomata
namespace Yaml

/-!
# Places in a configuration text

The layout of a configuration means something, so a place in it is what is
left of the text together with the line, the column, and the count of
characters before it.  Between the parts of a text there may be spaces, line
breaks and comments, but no tabs.  Three hyphens or three dots at the beginning
of a line mark where a document begins or ends.
-/

/-- A place in a text. -/
structure Cursor where
  index : Nat
  line : Nat
  column : Nat
  rest : List Char
deriving DecidableEq, Repr

def Cursor.ofText (text : List Char) : Cursor :=
  ⟨0, 0, 0, text⟩

/-- The mark of the byte order, which has no width. -/
def orderMark : Char := '\ufeff'

/-- The characters that end a line. -/
def isBreak (c : Char) : Bool :=
  c == '\n' || c == '\r' || c == '\x85' || c == '\u2028' || c == '\u2029'

/-- A line break as it stands in a scalar that is written over several
lines. -/
def foldedBreak (c : Char) : Char :=
  if c == '\u2028' || c == '\u2029' then c else '\n'

/-- Blanks within a line. -/
def isSpacing (c : Char) : Bool :=
  c == ' ' || c == '\t'

/-- Whether a text ends here or goes on with a blank. -/
def blankAhead : List Char → Bool
  | [] => true
  | c :: _ => isSpacing c || isBreak c

/-- Whether a character may stand in a configuration at all. -/
def isAllowed (c : Char) : Bool :=
  let code := c.toNat
  code == 0x09 || code == 0x0A || code == 0x0D || (0x20 ≤ code && code ≤ 0x7E) || code == 0x85 ||
    (0xA0 ≤ code && code ≤ 0xFFFD) || 0x10000 ≤ code

def Cursor.next (cursor : Cursor) : Cursor :=
  match cursor.rest with
  | [] => cursor
  | c :: rest =>
    if isBreak c then ⟨cursor.index + 1, cursor.line + 1, 0, rest⟩
    else
      ⟨cursor.index + 1, cursor.line, if c = orderMark then cursor.column else cursor.column + 1,
        rest⟩

def Cursor.forward : Nat → Cursor → Cursor
  | 0, cursor => cursor
  | count + 1, cursor => forward count cursor.next

/-- The marks between documents. -/
inductive Mark where
  | opening
  | closing
deriving DecidableEq, Repr

/-- The mark at the beginning of a line, if there is one. -/
def markAhead? (line : List Char) : Option Mark :=
  match line with
  | '-' :: '-' :: '-' :: rest => if blankAhead rest then some .opening else none
  | '.' :: '.' :: '.' :: rest => if blankAhead rest then some .closing else none
  | _ => none

def Cursor.mark? (cursor : Cursor) : Option Mark :=
  if cursor.column = 0 then markAhead? cursor.rest else none

/-- What stands between two parts: whether a line ended there, and where the
next part begins. -/
structure Gap where
  crossed : Bool
  cursor : Cursor
deriving DecidableEq, Repr

/-- The gap at a place, inside or outside of a comment. -/
def gapFrom (comment crossed : Bool) : Nat → Cursor → Gap
  | 0, cursor => ⟨crossed, cursor⟩
  | fuel + 1, cursor =>
    match cursor.rest with
    | [] => ⟨crossed, cursor⟩
    | c :: _ =>
      if isBreak c then gapFrom false true fuel cursor.next
      else if comment then gapFrom true crossed fuel cursor.next
      else if c = ' ' then gapFrom false crossed fuel cursor.next
      else if c = '#' then gapFrom true crossed fuel cursor.next
      else ⟨crossed, cursor⟩

/-- The gap at a place.  In front of everything a mark of the byte order
belongs to it. -/
def Cursor.gap (cursor : Cursor) : Gap :=
  let begun :=
    if cursor.index = 0 && cursor.rest.head? == some orderMark then cursor.next else cursor
  gapFrom false false (begun.rest.length + 1) begun

end Yaml
end FiniteAutomata
