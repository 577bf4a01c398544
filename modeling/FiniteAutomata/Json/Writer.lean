import FiniteAutomata.Text.Hexadecimal
import FiniteAutomata.Value.Basic

namespace FiniteAutomata
namespace Json

/-!
# Writing JSON

The compact form of a value: no blanks, members in their order, and every
character as itself but for the quote, the backslash and the controls below
the space.  The delete control stands as itself.
-/

/-- A character inside a JSON string. -/
def escaped (c : Char) : List Char :=
  if c = '"' then ['\\', '"']
  else if c = '\\' then ['\\', '\\']
  else if c = '\x08' then ['\\', 'b']
  else if c = '\t' then ['\\', 't']
  else if c = '\n' then ['\\', 'n']
  else if c = '\x0c' then ['\\', 'f']
  else if c = '\r' then ['\\', 'r']
  else if c.toNat < 0x20 then '\\' :: 'u' :: Text.hexDigits 4 c.toNat
  else [c]

def stringChars (text : String) : List Char :=
  '"' :: text.toList.flatMap escaped ++ ['"']

def intChars (value : Int) : List Char :=
  (toString value).toList

/-- A written fraction in JSON, by its digits and its exponent. -/
def fractionChars : Fraction → List Char
  | .finite decimal =>
    (if decimal.negative then ['-'] else []) ++ (toString decimal.digits).toList ++
      'e' :: intChars decimal.exponent
  | .infinite negative => (if negative then "-Infinity" else "Infinity").toList
  | .undefined => "NaN".toList

/-- Pieces with a comma between each two. -/
def separated : List (List Char) → List Char
  | [] => []
  | [piece] => piece
  | piece :: rest => piece ++ ',' :: separated rest

mutual

/-- The compact JSON form of a value, as characters. -/
def chars : Value → List Char
  | .null => "null".toList
  | .bool true => "true".toList
  | .bool false => "false".toList
  | .int value => intChars value
  | .fraction value => fractionChars value
  | .string text => stringChars text
  | .moment text => stringChars text
  | .garbled => stringChars "\ufffd"
  | .list items => '[' :: separated (itemChars items) ++ [']']
  | .object members => '{' :: separated (memberChars members) ++ ['}']

def itemChars : List Value → List (List Char)
  | [] => []
  | item :: rest => chars item :: itemChars rest

def memberChars : List (String × Value) → List (List Char)
  | [] => []
  | (key, value) :: rest => (stringChars key ++ ':' :: chars value) :: memberChars rest

end

def write (value : Value) : String :=
  String.ofList (chars value)

end Json
end FiniteAutomata
