namespace FiniteAutomata
namespace Text

/-!
# Hexadecimal digits

Code points and octets are shown in lower-case hexadecimal digits, in a count
that the place they stand in fixes.
-/

/-- The lower-case hexadecimal digit of a value below sixteen. -/
def hexDigit (value : Nat) : Char :=
  if value < 10 then Char.ofNat (48 + value) else Char.ofNat (87 + value)

/-- The last digits of a number in a fixed count. -/
def hexDigits : Nat → Nat → List Char
  | 0, _ => []
  | width + 1, value => hexDigits width (value / 16) ++ [hexDigit (value % 16)]

end Text
end FiniteAutomata
