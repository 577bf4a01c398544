import FiniteAutomata.Yaml.Scanner

namespace FiniteAutomata
namespace Yaml

/-!
# Tokens of a configuration

A configuration text as a list of tokens, in which the layout has become
tokens too: a block mapping or sequence opens where a key or a hyphen stands
further right than the block around it, and closes where the column falls
back.

A key is known as such only by the colon behind it.  So the places where a key
may have begun are remembered, one for each level of brackets, and when a colon
comes the token of the key is put in at the place.  A place is given up at the
end of its line or after `keyLimit` characters, and in a column where only keys
stand this breaks the text off.

A text that breaks off ends in the token of its fault.  Tokens behind a place
that is still open do not count then, because nothing is settled about them.
-/

/-- A scalar as it is written: whether without quotes, its text, and whether
all of it is text. -/
structure Written where
  plain : Bool
  text : List Char
  intact : Bool
deriving DecidableEq, Repr

/-- A scalar that is not there, which may stand for nothing. -/
def Written.absent : Written :=
  ⟨true, [], true⟩

/-- A part of a configuration text. -/
inductive Token where
  | mark (mark : Mark)
  | openSequence
  | openMapping
  | closeBlock
  | openBracket
  | closeBracket
  | openBrace
  | closeBrace
  | comma
  | hyphen
  | key
  | colon
  | scalar (written : Written)
  | broken (fault : Fault)
deriving DecidableEq, Repr

/-- The most characters from the beginning of a key to its colon. -/
def keyLimit : Nat := 1024

/-- A place where a key may have begun: the level of brackets, the count of
tokens in front of it, whether it has to be a key, and where it is. -/
structure KeyPlace where
  level : Nat
  count : Nat
  required : Bool
  cursor : Cursor
deriving DecidableEq, Repr

/-- Whether the colon of a key can still come at another place. -/
def KeyPlace.reaches (place : KeyPlace) (cursor : Cursor) : Bool :=
  place.cursor.line = cursor.line && cursor.index - place.cursor.index ≤ keyLimit

/-- The state of reading tokens: where, the tokens so far with the last one
first, the level of brackets, the columns of the blocks that are open from the
inside out, whether a key may begin here, and the open places of keys. -/
structure Layout where
  cursor : Cursor
  tokens : List Token
  level : Nat
  columns : List Nat
  keyAllowed : Bool
  places : List KeyPlace
deriving DecidableEq, Repr

namespace Layout

/-- The state in front of a text. -/
def ofText (text : List Char) : Layout :=
  ⟨.ofText text, [], 0, [], true, []⟩

/-- A column that no block has to its left. -/
def margin (layout : Layout) : Int :=
  match layout.columns with
  | column :: _ => column
  | [] => -1

def push (token : Token) (layout : Layout) : Layout :=
  { layout with tokens := token :: layout.tokens }

/-- Put tokens in behind the first so many. -/
def insert (count : Nat) (tokens : List Token) (layout : Layout) : Layout :=
  let behind := layout.tokens.length - count
  { layout with
    tokens := layout.tokens.take behind ++ tokens.reverse ++ layout.tokens.drop behind }

/-- Give up the places of keys whose colon is too far. -/
def forgetFar (layout : Layout) : Except Fault Layout :=
  if layout.places.any fun place => place.required && !place.reaches layout.cursor then
    .error .malformed
  else
    .ok { layout with places := layout.places.filter fun place => place.reaches layout.cursor }

/-- Give up the place of a key on the level of brackets. -/
def forgetHere (layout : Layout) : Except Fault Layout :=
  if layout.places.any fun place => place.level = layout.level && place.required then
    .error .malformed
  else
    .ok { layout with places := layout.places.filter fun place => place.level ≠ layout.level }

/-- Remember that a key may begin here. -/
def remember (layout : Layout) : Except Fault Layout :=
  if !layout.keyAllowed then .ok layout
  else
    match layout.forgetHere with
    | .error fault => .error fault
    | .ok next =>
      let required := layout.level = 0 && layout.margin = (layout.cursor.column : Int)
      .ok { next with
        places :=
          ⟨layout.level, layout.tokens.length, required, layout.cursor⟩ :: next.places }

/-- Close the blocks to the right of a column. -/
def closeBlocks (column : Int) : List Nat → List Token → List Nat × List Token
  | [], tokens => ([], tokens)
  | open_ :: outer, tokens =>
    if column < open_ then closeBlocks column outer (.closeBlock :: tokens)
    else (open_ :: outer, tokens)

/-- Close the blocks to the right of a column, unless there are brackets
around. -/
def fallBack (column : Int) (layout : Layout) : Layout :=
  if layout.level = 0 then
    let (columns, tokens) := closeBlocks column layout.columns layout.tokens
    { layout with columns := columns, tokens := tokens }
  else
    layout

/-- Go to the next token: over blanks and comments, and out of the blocks that
end there. -/
def advance (layout : Layout) : Except Fault Layout :=
  let gap := layout.cursor.gap
  let moved :=
    { layout with
      cursor := gap.cursor, keyAllowed := layout.keyAllowed || (gap.crossed && layout.level = 0) }
  moved.forgetFar.map fun next => next.fallBack next.cursor.column

/-! ## Single tokens -/

/-- Read a token of some characters that settles the place of a key. -/
def take (token : Token) (width : Nat) (keyAllowed : Bool) (layout : Layout) :
    Except Fault Layout :=
  layout.forgetHere.map fun next =>
    { next with
      cursor := next.cursor.forward width, tokens := token :: next.tokens,
      keyAllowed := keyAllowed }

def takeMark (mark : Mark) (layout : Layout) : Except Fault Layout :=
  (layout.fallBack (-1)).take (.mark mark) 3 false

def takeOpening (token : Token) (layout : Layout) : Except Fault Layout :=
  layout.remember.map fun next =>
    { next with
      cursor := next.cursor.next, tokens := token :: next.tokens, level := next.level + 1,
      keyAllowed := true }

def takeClosing (token : Token) (layout : Layout) : Except Fault Layout :=
  (layout.take token 1 false).map fun next => { next with level := next.level - 1 }

/-- Open a block in the column of the next token, if it is not open yet. -/
def openBlock (token : Token) (layout : Layout) : Except Fault Layout :=
  if 0 < layout.level then .ok layout
  else if !layout.keyAllowed then .error .malformed
  else if layout.margin < layout.cursor.column then
    .ok { layout.push token with columns := layout.cursor.column :: layout.columns }
  else
    .ok layout

def takeHyphen (layout : Layout) : Except Fault Layout :=
  (layout.openBlock .openSequence).bind (take .hyphen 1 true)

def takeQuestion (layout : Layout) : Except Fault Layout :=
  (layout.openBlock .openMapping).bind (take .key 1 (layout.level = 0))

/-- Read a colon.  The place of a key on the level of brackets becomes a key,
and opens a block if it stands further right than the block around it. -/
def takeColon (layout : Layout) : Except Fault Layout :=
  match layout.places.find? fun place => place.level = layout.level with
  | none => (layout.openBlock .openMapping).bind (take .colon 1 (layout.level = 0))
  | some place =>
    let opens := layout.level = 0 && layout.margin < place.cursor.column
    let placed := layout.insert place.count (if opens then [.openMapping, .key] else [.key])
    .ok { placed.push .colon with
      cursor := placed.cursor.next, keyAllowed := false,
      columns := if opens then place.cursor.column :: layout.columns else layout.columns,
      places := layout.places.filter fun other => other.level ≠ layout.level }

def pushScalar (plain : Bool) (scanned : Scanned) (layout : Layout) : Layout :=
  { layout.push (.scalar ⟨plain, scanned.text, scanned.intact⟩) with
    cursor := scanned.cursor, keyAllowed := scanned.crossed }

def takeQuoted (double : Bool) (layout : Layout) : Except Fault Layout :=
  match layout.remember with
  | .error fault => .error fault
  | .ok next =>
    (scanQuoted double (next.cursor.rest.length + 1) next.cursor.next).map fun scanned =>
      next.pushScalar false scanned

def takePlain (layout : Layout) : Except Fault Layout :=
  layout.remember.map fun next =>
    next.pushScalar true
      (scanPlain (0 < next.level) (next.margin + 1) (next.cursor.rest.length + 1) next.cursor)

/-- Read the next token, which begins with a character. -/
def takeToken (c : Char) (rest : List Char) (layout : Layout) : Except Fault Layout :=
  let bracketed := 0 < layout.level
  match layout.cursor.mark? with
  | some mark => layout.takeMark mark
  | none =>
    if c = '[' then layout.takeOpening .openBracket
    else if c = '\x7b' then layout.takeOpening .openBrace
    else if c = ']' then layout.takeClosing .closeBracket
    else if c = '\x7d' then layout.takeClosing .closeBrace
    else if c = ',' then layout.take .comma 1 true
    else if c = '-' && blankAhead rest then layout.takeHyphen
    else if c = '?' && (bracketed || blankAhead rest) then layout.takeQuestion
    else if c = ':' && (bracketed || blankAhead rest) then layout.takeColon
    else if c = '"' then layout.takeQuoted true
    else if c = '\'' then layout.takeQuoted false
    else if plainBegins bracketed (c :: rest) then layout.takePlain
    else .error .malformed

/-! ## All tokens -/

/-- The tokens of a text that breaks off: those in front of every open place
of a key, and the fault. -/
def breakOff (layout : Layout) (fault : Fault) : List Token :=
  let settled := layout.places.foldl (fun count place => min count place.count) layout.tokens.length
  layout.tokens.reverse.take settled ++ [.broken fault]

/-- The tokens from a state on.  Every round reads a character. -/
def finish : Nat → Layout → List Token
  | 0, layout => layout.breakOff .malformed
  | fuel + 1, layout =>
    match layout.advance with
    | .error fault => layout.breakOff fault
    | .ok next =>
      match next.cursor.rest with
      | [] =>
        match (next.fallBack (-1)).forgetHere with
        | .error fault => next.breakOff fault
        | .ok ended => ended.tokens.reverse
      | c :: rest =>
        match next.takeToken c rest with
        | .error fault => next.breakOff fault
        | .ok after => finish fuel after

end Layout

def tokens (text : List Char) : List Token :=
  (Layout.ofText text).finish (text.length + 2)

end Yaml
end FiniteAutomata
