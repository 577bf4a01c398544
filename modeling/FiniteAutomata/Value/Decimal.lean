namespace FiniteAutomata

/-!
# Decimals and the binary numbers nearest to them

A written fraction is kept as the decimal that it denotes.  Where it is
compared with a whole number, the number it stands for is the nearest of the
64-bit binary numbers, which have a coefficient of at most 53 bits; a decimal
half way between two of them goes to the one with the even coefficient, and
one past the largest has none.  The computation is exact, on natural numbers.
-/

/-- A decimal number, `digits` times ten to the power `exponent`. -/
structure Decimal where
  negative : Bool
  digits : Nat
  exponent : Int
deriving DecidableEq, Repr

/-- A binary number, `coefficient` times two to the power `exponent`. -/
structure Binary where
  negative : Bool
  coefficient : Nat
  exponent : Int
deriving DecidableEq, Repr

/-- A quotient rounded to the nearest whole number, a half to the even one. -/
def roundedQuotient (numerator denominator : Nat) : Nat :=
  let quotient := numerator / denominator
  let twice := 2 * (numerator % denominator)
  if twice < denominator then quotient
  else if denominator < twice then quotient + 1
  else quotient + quotient % 2

/-- The quotient of two numbers after division by a power of two. -/
def scaledQuotient (round : Nat → Nat → Nat) (numerator denominator : Nat) (exponent : Int) : Nat :=
  if exponent < 0 then round (numerator * Nat.pow 2 (-exponent).toNat) denominator
  else round numerator (denominator * Nat.pow 2 exponent.toNat)

/-- The exponent at which a positive quotient has a coefficient of 53 bits, or
the least exponent if that is larger. -/
def coefficientExponent (numerator denominator : Nat) : Int :=
  let low : Int := (numerator.log2 : Int) - (denominator.log2 : Int) - 53
  let coefficient := scaledQuotient (· / ·) numerator denominator low
  max (if coefficient < Nat.pow 2 53 then low else low + 1) (-1074)

/-- The binary number nearest to a positive quotient, if there is one. -/
def nearestBinary? (negative : Bool) (numerator denominator : Nat) : Option Binary :=
  let exponent := coefficientExponent numerator denominator
  let coefficient := scaledQuotient roundedQuotient numerator denominator exponent
  if exponent + (coefficient.log2 : Int) < 1024 then some ⟨negative, coefficient, exponent⟩
  else none

/-- The binary number nearest to a decimal, or none past the largest.
Decimals far outside of the range are settled by their size alone. -/
def Decimal.nearest? (decimal : Decimal) : Option Binary :=
  if decimal.digits = 0 then some ⟨decimal.negative, 0, 0⟩
  else if 400 < decimal.exponent then none
  else if decimal.exponent + (decimal.digits.log2 : Int) < -1200 then some ⟨decimal.negative, 0, 0⟩
  else if decimal.exponent < 0 then
    nearestBinary? decimal.negative decimal.digits (Nat.pow 10 (-decimal.exponent).toNat)
  else
    nearestBinary? decimal.negative (decimal.digits * Nat.pow 10 decimal.exponent.toNat) 1

/-- The whole number that a binary number is, if it is one. -/
def Binary.whole? (binary : Binary) : Option Int :=
  let sign (size : Nat) : Int := if binary.negative then -(size : Int) else size
  if binary.exponent < 0 then
    let unit := Nat.pow 2 (-binary.exponent).toNat
    if binary.coefficient % unit = 0 then some (sign (binary.coefficient / unit)) else none
  else
    some (sign (binary.coefficient * Nat.pow 2 binary.exponent.toNat))

/-- A written fraction: a decimal, an infinity, or no number at all. -/
inductive Fraction where
  | finite (decimal : Decimal)
  | infinite (negative : Bool)
  | undefined
deriving DecidableEq, Repr

/-- The binary number that a written fraction stands for, if it is finite. -/
def Fraction.nearest? : Fraction → Option Binary
  | .finite decimal => decimal.nearest?
  | .infinite _ => none
  | .undefined => none

end FiniteAutomata
