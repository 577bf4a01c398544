import FiniteAutomata.Text.Blank
import FiniteAutomata.Text.Digit
import FiniteAutomata.Text.Split

namespace FiniteAutomata
namespace Text

/-!
# Whole numbers in writing

Two written forms of a whole number are read.  Both allow blank ends, a sign,
and single underscores between digits.  `wholeNumber?` takes the decimal
digits of any script and at most `digitLimit` of them, leading zeros counted.
`basicWhole?` takes the basic digits only, and allows a point followed by zeros
after them.  It takes leading zeros off before it reads a hyphen, so that a
hyphen may follow them but no zero may follow a hyphen.
-/

/-- The most digits that a written number may have. -/
def digitLimit : Nat := 4300

/-- Digits, of which each two neighbours may have an underscore between
them. -/
def separatedDigits (digit? : Char → Option Nat) : List Char → Option (List Nat)
  | [] => none
  | c :: rest =>
    match digit? c, rest with
    | none, _ => none
    | some digit, [] => some [digit]
    | some digit, '_' :: more => (separatedDigits digit? more).map (digit :: ·)
    | some digit, next :: more => (separatedDigits digit? (next :: more)).map (digit :: ·)

/-- The number that digits denote, the highest first. -/
def ofDigits (base : Nat) (digits : List Nat) : Nat :=
  digits.foldl (fun value digit => value * base + digit) 0

/-- A sign taken off: whether the number is negative, and what follows. -/
def takeSign : List Char → Bool × List Char
  | '-' :: rest => (true, rest)
  | '+' :: rest => (false, rest)
  | rest => (false, rest)

/-- A size with a sign. -/
def signed (negative : Bool) (size : Nat) : Int :=
  if negative then -(size : Int) else size

/-- The whole number written in a text, in the digits of any script. -/
def wholeNumber? (text : List Char) : Option Int :=
  let (negative, body) := takeSign (trimmed text)
  match separatedDigits digitValue? body with
  | some digits =>
    if digits.length ≤ digitLimit then some (signed negative (ofDigits 10 digits)) else none
  | none => none

/-- The digits in front of a point and a fraction that is zero, or all of the
text if it has no point. -/
def withoutZeroFraction (text : List Char) : Option (List Char) :=
  let (whole, fraction) := text.span (· != '.')
  match fraction with
  | [] => some whole
  | _ :: zeros => if !zeros.isEmpty && zeros.all (· == '0') then some whole else none

/-- A text without a plus sign in front of it.  No other sign may follow it. -/
def withoutPlus : List Char → Option (List Char)
  | '+' :: '-' :: _ => none
  | '+' :: rest => some rest
  | rest => some rest

/-- Whether a number can go on with a character after its leading zeros. -/
def leadsNumber (c : Char) : Bool :=
  c == '-' || (basicDigit? c).isSome

/-- A text without leading zeros.  Underscores go with the zeros that they
follow.  The last of these characters stays if a point comes next or nothing
at all. -/
def withoutLeadingZeros : List Char → Option (List Char)
  | [] => none
  | '0' :: rest =>
    let isFiller (c : Char) : Bool := c == '0' || c == '_'
    let last := (rest.takeWhile isFiller).getLast?.getD '0'
    match rest.dropWhile isFiller with
    | [] => some [last]
    | c :: more =>
      if c = '.' then some (last :: c :: more)
      else if leadsNumber c then some (c :: more)
      else none
  | c :: rest => if leadsNumber c then some (c :: rest) else none

/-- A text without its underscores, none of which may stand at an end or next
to another. -/
def withoutUnderscores (text : List Char) : Option (List Char) :=
  if (splitAt '_' text).any List.isEmpty then none else some (text.filter (· != '_'))

/-- Basic digits, with a hyphen in front or without, of which the first is no
zero unless it is the only one. -/
def strictWhole? (text : List Char) : Option (Bool × List Nat) :=
  let (negative, body) :=
    match text with
    | '-' :: rest => (true, rest)
    | rest => (false, rest)
  match body.mapM basicDigit? with
  | none => none
  | some [] => none
  | some (0 :: _ :: _) => none
  | some digits => some (negative, digits)

/-- The whole number written in a text in basic digits.  The inner option is
empty if it has too many of them. -/
def basicWhole? (text : List Char) : Option (Option Int) :=
  match (((withoutPlus (stripEnds isSpace text)).bind withoutLeadingZeros).bind
      withoutZeroFraction).bind withoutUnderscores with
  | none => none
  | some body =>
    (strictWhole? body).map fun parts =>
      if parts.2.length ≤ digitLimit then some (signed parts.1 (ofDigits 10 parts.2)) else none

end Text
end FiniteAutomata
