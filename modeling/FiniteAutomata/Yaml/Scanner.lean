import FiniteAutomata.Json.Reader
import FiniteAutomata.Yaml.Cursor
import FiniteAutomata.Yaml.Fault

namespace FiniteAutomata
namespace Yaml

/-!
# Scalars of several characters

The scanners of scalars.  A scalar between quotes and a plain one may go on
over several lines; a single line break in it then stands for a space, and of
several the first is dropped.  Between apostrophes an apostrophe is written
twice; between double quotes the backslash escapes.

An escape may name half of a surrogate pair.  No text holds such a half, so the
scanner only notes that there was one.
-/

/-- The text of a scalar, whether all of it is text, whether a line ended right
behind it, and the place behind it. -/
structure Scanned where
  text : List Char
  intact : Bool
  crossed : Bool
  cursor : Cursor
deriving DecidableEq, Repr

/-- A scalar with more text in front. -/
def Scanned.after (text : List Char) (scanned : Scanned) : Scanned :=
  { scanned with text := text ++ scanned.text }

/-- A scalar with half of a surrogate pair in front. -/
def Scanned.afterHalf (scanned : Scanned) : Scanned :=
  { scanned with intact := false }

/-! ## Quoted scalars -/

/-- The breaks after a first one, up to the next text; none if a mark between
documents is in the way. -/
def foldedLines : Nat → Cursor → Option (List Char × Cursor)
  | 0, _ => none
  | fuel + 1, cursor =>
    if cursor.column = 0 && (markAhead? cursor.rest).isSome then none
    else
      match cursor.rest with
      | c :: _ =>
        if isSpacing c then foldedLines fuel cursor.next
        else if isBreak c then
          (foldedLines fuel cursor.next).map fun found => (foldedBreak c :: found.1, found.2)
        else some ([], cursor)
      | [] => some ([], cursor)

/-- The text of a first line break, given those that follow it. -/
def foldedText (first : Char) (breaks : List Char) : List Char :=
  (if foldedBreak first ≠ '\n' then [first] else if breaks.isEmpty then [' '] else []) ++ breaks

/-- The character of an escape with one letter. -/
def letterEscape? (c : Char) : Option Char :=
  [('0', '\x00'), ('a', '\x07'), ('b', '\x08'), ('t', '\t'), ('\t', '\t'), ('n', '\n'),
    ('v', '\x0b'), ('f', '\x0c'), ('r', '\r'), ('e', '\x1b'), (' ', ' '), ('"', '"'),
    ('\\', '\\'), ('/', '/'), ('N', '\x85'), ('_', '\xa0'), ('L', '\u2028'),
    ('P', '\u2029')].lookup c

/-- The count of digits of an escape by code point. -/
def codeWidth? (c : Char) : Option Nat :=
  [('x', 2), ('u', 4), ('U', 8)].lookup c

/-- The value of hexadecimal digits, if they are. -/
def hexNumber? (text : List Char) : Option Nat :=
  (text.mapM Json.hexValue?).map (Text.ofDigits 16)

/-- A character by its code point, or half of a surrogate pair. -/
def charOfCode (code : Nat) : Except Fault (Option Char) :=
  if Nat.pow 2 31 ≤ code then .error .hugeCode
  else if 0x110000 ≤ code then .error .noCharacter
  else if 0xD800 ≤ code ∧ code < 0xE000 then .ok none
  else .ok (some (Char.ofNat code))

/-- The rest of a quoted scalar after its opening quote. -/
def scanQuoted (double : Bool) : Nat → Cursor → Except Fault Scanned
  | 0, _ => .error .malformed
  | fuel + 1, cursor =>
    match cursor.rest with
    | [] => .error .malformed
    | c :: rest =>
      if isSpacing c || isBreak c then
        let spaces := cursor.rest.takeWhile isSpacing
        let behind := cursor.forward spaces.length
        match behind.rest with
        | [] => .error .malformed
        | d :: more =>
          if isBreak d then
            match foldedLines (more.length + 1) behind.next with
            | none => .error .malformed
            | some (breaks, place) =>
              (scanQuoted double fuel place).map (.after (foldedText d breaks))
          else
            (scanQuoted double fuel behind).map (.after spaces)
      else if !double && c = '\'' then
        match rest with
        | '\'' :: _ => (scanQuoted double fuel (cursor.forward 2)).map (.after ['\''])
        | _ => .ok ⟨[], true, false, cursor.next⟩
      else if double && c = '"' then .ok ⟨[], true, false, cursor.next⟩
      else if double && c = '\\' then
        match rest with
        | [] => .error .malformed
        | letter :: more =>
          match letterEscape? letter, codeWidth? letter with
          | some char, _ => (scanQuoted double fuel (cursor.forward 2)).map (.after [char])
          | none, some width =>
            if (more.take width).length < width then .error .malformed
            else
              match (hexNumber? (more.take width)).map charOfCode with
              | none => .error .malformed
              | some (.error fault) => .error fault
              | some (.ok none) =>
                (scanQuoted double fuel (cursor.forward (2 + width))).map .afterHalf
              | some (.ok (some char)) =>
                (scanQuoted double fuel (cursor.forward (2 + width))).map (.after [char])
          | none, none =>
            if isBreak letter then
              match foldedLines (more.length + 1) (cursor.forward 2) with
              | none => .error .malformed
              | some (breaks, place) => (scanQuoted double fuel place).map (.after breaks)
            else
              .error .malformed
      else
        (scanQuoted double fuel cursor.next).map (.after [c])

/-! ## Plain scalars -/

/-- The characters that end a plain scalar inside brackets. -/
def isFlowMark (c : Char) : Bool :=
  c == ',' || c == '[' || c == ']' || c == '\x7b' || c == '\x7d'

/-- The further characters that no plain scalar begins with. -/
def plainBarred : List Char :=
  ['#', '&', '*', '!', '|', '>', '\'', '"', '%', '@', '\x60']

/-- Whether a plain scalar can begin here. -/
def plainBegins (flow : Bool) : List Char → Bool
  | [] => false
  | c :: rest =>
    if c = '-' then !blankAhead rest
    else if c = '?' || c = ':' then !flow && !blankAhead rest
    else !(isSpacing c || isBreak c || isFlowMark c || plainBarred.contains c)

/-- The characters of a plain scalar up to a blank or a mark. -/
def plainRun (flow : Bool) : List Char → List Char
  | [] => []
  | c :: rest =>
    let colon :=
      c = ':' && (blankAhead rest || (flow && (rest.head?.map isFlowMark).getD false))
    if isSpacing c || isBreak c || colon || (flow && (isFlowMark c || c = '?')) then []
    else c :: plainRun flow rest

/-- The breaks after a first one, up to the next text; none if a mark between
documents ends the scalar. -/
def plainBreaks : Nat → Cursor → Option (List Char) × Cursor
  | 0, cursor => (none, cursor)
  | fuel + 1, cursor =>
    match cursor.rest with
    | c :: rest =>
      if c = ' ' then plainBreaks fuel cursor.next
      else if isBreak c then
        if (markAhead? rest).isSome then (none, cursor.next)
        else
          let (breaks, place) := plainBreaks fuel cursor.next
          (breaks.map (foldedBreak c :: ·), place)
      else (some [], cursor)
    | [] => (some [], cursor)

/-- The blanks behind a run of a plain scalar: what they stand for if the
scalar goes on, and where. -/
def plainGap (cursor : Cursor) : Scanned :=
  let spaces := cursor.rest.takeWhile (· == ' ')
  let behind := cursor.forward spaces.length
  match behind.rest with
  | c :: rest =>
    if isBreak c then
      if (markAhead? rest).isSome then ⟨[], true, true, behind.next⟩
      else
        let (breaks, place) := plainBreaks (rest.length + 1) behind.next
        match breaks with
        | some breaks => ⟨foldedText c breaks, true, true, place⟩
        | none => ⟨[], true, true, place⟩
    else
      ⟨spaces, true, false, behind⟩
  | [] => ⟨spaces, true, false, behind⟩

/-- A plain scalar.  Outside of brackets its further lines begin at the margin
or behind it. -/
def scanPlain (flow : Bool) (margin : Int) : Nat → Cursor → Scanned
  | 0, cursor => ⟨[], true, false, cursor⟩
  | fuel + 1, cursor =>
    let run := plainRun flow cursor.rest
    let gap := plainGap (cursor.forward run.length)
    if gap.text.isEmpty || gap.cursor.rest.head? == some '#' ||
        (!flow && gap.cursor.column < margin) || (plainRun flow gap.cursor.rest).isEmpty then
      ⟨run, true, gap.crossed, gap.cursor⟩
    else
      (scanPlain flow margin fuel gap.cursor).after (run ++ gap.text)

end Yaml
end FiniteAutomata
