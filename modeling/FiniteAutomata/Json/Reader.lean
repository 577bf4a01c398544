import FiniteAutomata.Text.Number
import FiniteAutomata.Value.Basic

namespace FiniteAutomata
namespace Json

/-!
# Reading JSON

The grammar of JSON texts, with three names for numbers that are not finite.
A text is one value between blanks.  A reader limits the digits in front of the
point of a number and how deep lists and objects that hold something are
nested; `read?` allows `Text.digitLimit` and `nestingLimit`.  An escaped
surrogate needs its partner.  Members of an object keep their order, and a key
may recur.

`readValue` reads one value at the front of a text and gives the rest.  Its
fuel bounds the number of nested calls, and `readWithin?` supplies enough for
any text: a call either reads a character or is followed by one that does.
-/

/-- The deepest nesting of lists and objects that hold something. -/
def nestingLimit : Nat := 200

/-- The characters that may stand between the parts of a text. -/
def isGap (c : Char) : Bool :=
  c == ' ' || c == '\t' || c == '\n' || c == '\r'

/-- A text from its first part on. -/
def skipGap (text : List Char) : List Char :=
  text.dropWhile isGap

def hexValue? (c : Char) : Option Nat :=
  let code := c.toNat
  if 48 ≤ code && code ≤ 57 then some (code - 48)
  else if 97 ≤ code && code ≤ 102 then some (code - 87)
  else if 65 ≤ code && code ≤ 70 then some (code - 55)
  else none

/-- The value of four hexadecimal digits. -/
def hexValues? (a b c d : Char) : Option Nat :=
  match hexValue? a, hexValue? b, hexValue? c, hexValue? d with
  | some a, some b, some c, some d => some (((a * 16 + b) * 16 + c) * 16 + d)
  | _, _, _, _ => none

/-- The character of an escape with one letter. -/
def shortEscape? (c : Char) : Option Char :=
  match c with
  | '"' => some '"'
  | '\\' => some '\\'
  | '/' => some '/'
  | 'b' => some '\x08'
  | 'f' => some '\x0c'
  | 'n' => some '\n'
  | 'r' => some '\r'
  | 't' => some '\t'
  | _ => none

/-- The character that two surrogates stand for, if they are a pair. -/
def surrogatePair? (high low : Nat) : Option Char :=
  if 0xD800 ≤ high && high < 0xDC00 && 0xDC00 ≤ low && low < 0xE000 then
    some (Char.ofNat (0x10000 + (high - 0xD800) * 0x400 + (low - 0xDC00)))
  else
    none

/-- The characters of a string up to its closing quote, and the rest. -/
def readString : List Char → Option (List Char × List Char)
  | [] => none
  | '"' :: rest => some ([], rest)
  | '\\' :: 'u' :: a :: b :: c :: d :: rest =>
    match hexValues? a b c d with
    | none => none
    | some code =>
      if 0xD800 ≤ code && code < 0xE000 then
        match rest with
        | '\\' :: 'u' :: e :: f :: g :: h :: more =>
          match (hexValues? e f g h).bind (surrogatePair? code) with
          | some char => (readString more).map fun parts => (char :: parts.1, parts.2)
          | none => none
        | _ => none
      else
        (readString rest).map fun parts => (Char.ofNat code :: parts.1, parts.2)
  | '\\' :: c :: rest =>
    match shortEscape? c with
    | some char => (readString rest).map fun parts => (char :: parts.1, parts.2)
    | none => none
  | c :: rest =>
    if c.toNat < 0x20 then none
    else (readString rest).map fun parts => (c :: parts.1, parts.2)

/-- The basic digits at the front of a text, and the rest. -/
def readDigits : List Char → List Nat × List Char
  | [] => ([], [])
  | c :: rest =>
    match Text.basicDigit? c with
    | some digit =>
      let (digits, more) := readDigits rest
      (digit :: digits, more)
    | none => ([], c :: rest)

/-- The digits of a fraction after its point, if there is one. -/
def readFraction : List Char → Option (List Nat × List Char)
  | '.' :: rest =>
    match readDigits rest with
    | ([], _) => none
    | (digits, more) => some (digits, more)
  | rest => some ([], rest)

/-- The exponent of a number, if there is one. -/
def readExponent (text : List Char) : Option (Option Int × List Char) :=
  let ofSign (negative : Bool) (rest : List Char) : Option (Option Int × List Char) :=
    match readDigits rest with
    | ([], _) => none
    | (digits, more) => some (some (Text.signed negative (Text.ofDigits 10 digits)), more)
  match text with
  | c :: rest =>
    if c = 'e' ∨ c = 'E' then ofSign (Text.takeSign rest).1 (Text.takeSign rest).2
    else some (none, c :: rest)
  | [] => some (none, [])

/-- A value that is one name, and the rest. -/
def readName (text : List Char) : Option (Value × List Char) :=
  [("null", Value.null), ("true", .bool true), ("false", .bool false),
    ("NaN", .fraction .undefined), ("Infinity", .fraction (.infinite false)),
    ("-Infinity", .fraction (.infinite true))].findSome? fun entry =>
      if entry.1.toList.isPrefixOf text then some (entry.2, text.drop entry.1.length) else none

section Limited

variable (limit : Nat)

/-- The digits in front of the point: a zero alone, or digits that do not
begin with one, and not too many of them. -/
def readWhole (text : List Char) : Option (List Nat × List Char) :=
  match readDigits text with
  | ([], _) => none
  | (0 :: _ :: _, _) => none
  | (digits, rest) => if digits.length ≤ limit then some (digits, rest) else none

/-- A number after its sign, and the rest. -/
def readNumber (negative : Bool) (text : List Char) : Option (Value × List Char) :=
  match readWhole limit text with
  | none => none
  | some (whole, afterWhole) =>
    match readFraction afterWhole with
    | none => none
    | some (fraction, afterFraction) =>
      match readExponent afterFraction with
      | none => none
      | some (none, rest) =>
        if fraction.isEmpty then
          some (.int (Text.signed negative (Text.ofDigits 10 whole)), rest)
        else
          some (.fraction (.finite ⟨negative, Text.ofDigits 10 (whole ++ fraction),
            -(fraction.length : Int)⟩), rest)
      | some (some exponent, rest) =>
        some (.fraction (.finite ⟨negative, Text.ofDigits 10 (whole ++ fraction),
          exponent - (fraction.length : Int)⟩), rest)

/-- A value without parts, and the rest. -/
def readScalar (text : List Char) : Option (Value × List Char) :=
  match text with
  | '"' :: rest => (readString rest).map fun parts => (.string (String.ofList parts.1), parts.2)
  | _ =>
    match readName text with
    | some found => some found
    | none =>
      match text with
      | '-' :: rest => readNumber limit true rest
      | rest => readNumber limit false rest

mutual

/-- One value at the front of a text, and the rest. -/
def readValue (fuel depth : Nat) (text : List Char) : Option (Value × List Char) :=
  match fuel with
  | 0 => none
  | fuel + 1 =>
    match text with
    | '[' :: rest =>
      match skipGap rest, depth with
      | ']' :: more, _ => some (.list [], more)
      | _, 0 => none
      | more, depth + 1 =>
        (readItems fuel depth more).map fun parts => (.list parts.1, parts.2)
    | '{' :: rest =>
      match skipGap rest, depth with
      | '}' :: more, _ => some (.object [], more)
      | _, 0 => none
      | more, depth + 1 =>
        (readMembers fuel depth more).map fun parts => (.object parts.1, parts.2)
    | _ => readScalar limit text

/-- The items of a list from the first one on, and the rest after its
closing bracket. -/
def readItems (fuel depth : Nat) (text : List Char) : Option (List Value × List Char) :=
  match fuel with
  | 0 => none
  | fuel + 1 =>
    match readValue fuel depth text with
    | none => none
    | some (item, rest) =>
      match skipGap rest with
      | ',' :: more =>
        (readItems fuel depth (skipGap more)).map fun parts => (item :: parts.1, parts.2)
      | ']' :: more => some ([item], more)
      | _ => none

/-- The members of an object from the first key on, and the rest after its
closing brace. -/
def readMembers (fuel depth : Nat) (text : List Char) :
    Option (List (String × Value) × List Char) :=
  match fuel with
  | 0 => none
  | fuel + 1 =>
    match text with
    | '"' :: rest =>
      match readString rest with
      | none => none
      | some (key, afterKey) =>
        match skipGap afterKey with
        | ':' :: beforeValue =>
          match readValue fuel depth (skipGap beforeValue) with
          | none => none
          | some (value, afterValue) =>
            match skipGap afterValue with
            | ',' :: more =>
              (readMembers fuel depth (skipGap more)).map fun parts =>
                ((String.ofList key, value) :: parts.1, parts.2)
            | '}' :: more => some ([(String.ofList key, value)], more)
            | _ => none
        | _ => none
    | _ => none

end

end Limited

/-- The value of a text in which no number has more digits in front of its
point, and nothing is nested deeper, than allowed. -/
def readWithin? (limit depth : Nat) (text : String) : Option Value :=
  let chars := text.toList
  match readValue limit (2 * chars.length + 2) depth (skipGap chars) with
  | some (value, rest) => if (skipGap rest).isEmpty then some value else none
  | none => none

def read? (text : String) : Option Value :=
  readWithin? Text.digitLimit nestingLimit text

end Json
end FiniteAutomata
