import FiniteAutomata.Text.Hexadecimal
import FiniteAutomata.Text.Printable

namespace FiniteAutomata
namespace Text

/-!
# Quoted texts

The quoted form of a text shows it on one line and without loss.  It stands
between apostrophes, or between double quotes if the text holds an apostrophe
and no double quote.  The quote and the backslash are escaped by a backslash,
the tab, the line feed and the carriage return have a letter of their own, and
every other character that does not print is written by its code point in two,
four or eight hexadecimal digits.
-/

/-- A character as it stands in a quoted text. -/
def quotedChar (quote c : Char) : List Char :=
  if c = quote ∨ c = '\\' then ['\\', c]
  else if c = '\t' then ['\\', 't']
  else if c = '\n' then ['\\', 'n']
  else if c = '\r' then ['\\', 'r']
  else if isPrintable c then [c]
  else if c.toNat < 0x100 then '\\' :: 'x' :: hexDigits 2 c.toNat
  else if c.toNat < 0x10000 then '\\' :: 'u' :: hexDigits 4 c.toNat
  else '\\' :: 'U' :: hexDigits 8 c.toNat

/-- The quote that a text is put between. -/
def quoteFor (text : List Char) : Char :=
  if text.contains '\'' && !text.contains '"' then '"' else '\''

def quoted (text : String) : String :=
  let quote := quoteFor text.toList
  String.ofList (quote :: text.toList.flatMap (quotedChar quote) ++ [quote])

end Text
end FiniteAutomata
