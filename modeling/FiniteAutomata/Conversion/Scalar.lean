import FiniteAutomata.Conversion.Problem
import FiniteAutomata.Text.Number

namespace FiniteAutomata
namespace Conversion

/-!
# Texts, flags and whole numbers

Only a text converts to a text.  A flag may also be the number or the word for
it, in any letter case.  A whole number may be a flag, a fraction without
fractional part, or a text in basic digits.
-/

def text : Value → Except Trouble String
  | .string text => .ok text
  | .garbled => .error .notUnicode
  | _ => .error .notString

/-- The words for a flag that is set. -/
def setWords : List String :=
  ["1", "on", "t", "true", "y", "yes"]

/-- The words for a flag that is not set. -/
def unsetWords : List String :=
  ["0", "off", "f", "false", "n", "no"]

/-- Whole numbers written as fractions are taken below this size, and flags
written as whole numbers down to its negative too. -/
def wordBound : Nat := Nat.pow 2 63

/-- The whole number that a fraction is. -/
def wholeOfFraction (value : Fraction) : Except Trouble Int :=
  match value.nearest? with
  | none => .error .infiniteWhole
  | some binary =>
    match binary.whole? with
    | none => .error .fractionalWhole
    | some whole => if whole.natAbs < wordBound then .ok whole else .error .hugeWhole

/-- The flag that a number stands for. -/
def flagOfInt (value : Int) : Except Trouble Bool :=
  if value = 0 then .ok false
  else if value = 1 then .ok true
  else if -(wordBound : Int) ≤ value ∧ value < wordBound then .error .unclearFlag
  else .error .notFlag

def flag : Value → Except Trouble Bool
  | .bool value => .ok value
  | .int value => flagOfInt value
  | .fraction value =>
    match wholeOfFraction value with
    | .ok whole => flagOfInt whole
    | .error _ => .error .notFlag
  | .string text =>
    let word := String.ofList (text.toList.map Char.toLower)
    if word ∈ setWords then .ok true
    else if word ∈ unsetWords then .ok false
    else .error .unclearFlag
  | .garbled => .error .notUnicode
  | _ => .error .notFlag

def whole : Value → Except Trouble Int
  | .bool value => .ok (if value then 1 else 0)
  | .int value => .ok value
  | .fraction value => wholeOfFraction value
  | .string text =>
    match Text.basicWhole? text.toList with
    | none => .error .unreadableWhole
    | some none => .error .hugeWhole
    | some (some whole) => .ok whole
  | .garbled => .error .notUnicode
  | _ => .error .notWhole

end Conversion
end FiniteAutomata
