import FiniteAutomata.Text.Number
import FiniteAutomata.Text.Split
import FiniteAutomata.Value.Basic
import FiniteAutomata.Yaml.Moment

namespace FiniteAutomata
namespace Yaml

/-!
# Plain scalars

What a scalar without quotes denotes, by the rules of YAML 1.1: a null, a flag
by one of its names, a whole number in base two, eight, ten, sixteen or sixty,
a fraction with a point, a calendar date, or else the text itself.  The names
of the merge key and of the default key denote nothing on their own.  A scalar
may have the form of a number or a date and be none all the same, which is a
fault.
-/

def nullNames : List String := ["", "~", "null", "Null", "NULL"]

/-- The spellings of the flag that is set. -/
def setNames : List String :=
  ["yes", "Yes", "YES", "true", "True", "TRUE", "on", "On", "ON"]

/-- The spellings of the flag that is not set. -/
def unsetNames : List String :=
  ["no", "No", "NO", "false", "False", "FALSE", "off", "Off", "OFF"]

def infinityNames : List String := [".inf", ".Inf", ".INF"]

/-- The spellings of what is no number. -/
def undefinedNames : List String := [".nan", ".NaN", ".NAN"]

/-- The value of a digit in a base of up to sixteen. -/
def digitIn? (base : Nat) (c : Char) : Option Nat :=
  let code := c.toNat
  let value :=
    if 48 ≤ code && code ≤ 57 then code - 48
    else if 97 ≤ code && code ≤ 102 then code - 87
    else if 65 ≤ code && code ≤ 70 then code - 55
    else base
  if value < base then some value else none

/-- The digits of a text in which underscores may stand anywhere, if there is
nothing else. -/
def looseDigits? (base : Nat) : List Char → Option (List Nat)
  | [] => some []
  | '_' :: rest => looseDigits? base rest
  | c :: rest =>
    match digitIn? base c, looseDigits? base rest with
    | some digit, some digits => some (digit :: digits)
    | _, _ => none

/-- A text that begins with a digit of base ten, as digits. -/
def decimalDigits? : List Char → Option (List Nat)
  | c :: rest => if (digitIn? 10 c).isSome then looseDigits? 10 (c :: rest) else none
  | [] => none

/-- A place of a number in base sixty: one or two digits. -/
def sixty? : List Char → Option Nat
  | [a] => digitIn? 10 a
  | [a, b] =>
    match digitIn? 6 a, digitIn? 10 b with
    | some high, some low => some (high * 10 + low)
    | _, _ => none
  | _ => none

/-- A number in base sixty: its places after the first. -/
def sixties? (first : Nat) : List (List Char) → Option Nat
  | [] => some first
  | piece :: rest =>
    match sixty? piece with
    | some value => sixties? (first * 60 + value) rest
    | none => none

/-- A number in base ten or sixty, of which the places after the first have a
colon in front.  The first place has a limited number of digits. -/
def placedSize? (text : List Char) : Option (Except Fault Nat) :=
  match Text.splitAt ':' text with
  | [] => none
  | first :: rest =>
    match decimalDigits? first with
    | none => none
    | some digits =>
      (sixties? (Text.ofDigits 10 digits) rest).map fun size =>
        if digits.length ≤ Text.digitLimit then .ok size else .error (.longNumber digits.length)

/-- The number of digits in a base that is named in front, of which there may
be none but underscores. -/
def basedSize? (base : Nat) (text : List Char) : Option (Except Fault Nat) :=
  (looseDigits? base text).map fun digits =>
    if digits.isEmpty then .error (.noDigits base) else .ok (Text.ofDigits base digits)

/-- The size of a whole number without its sign. -/
def wholeSize? (text : List Char) : Option (Except Fault Nat) :=
  match text with
  | '0' :: 'b' :: c :: rest => basedSize? 2 (c :: rest)
  | '0' :: 'x' :: c :: rest => basedSize? 16 (c :: rest)
  | '0' :: rest => (looseDigits? 8 rest).map fun digits => .ok (Text.ofDigits 8 digits)
  | _ => placedSize? text

/-- The exponent of a fraction: a letter, a sign and digits, or nothing. -/
def exponent? : List Char → Option Int
  | [] => some 0
  | letter :: sign :: digits =>
    if (letter = 'e' ∨ letter = 'E') ∧ (sign = '+' ∨ sign = '-') ∧ !digits.isEmpty then
      match digits.mapM (digitIn? 10) with
      | some values => some (Text.signed (sign = '-') (Text.ofDigits 10 values))
      | none => none
    else
      none
  | _ => none

/-- The digits behind a point and the exponent. -/
def fractionTail? (text : List Char) : Option (List Nat × Int) :=
  let (digits, tail) := text.span fun c => c != 'e' && c != 'E'
  match looseDigits? 10 digits, exponent? tail with
  | some digits, some exponent => some (digits, exponent)
  | _, _ => none

/-- The decimal of digits in front of a point, digits behind it, and an
exponent. -/
def decimalOf (negative : Bool) (whole : Nat) (fraction : List Nat) (exponent : Int) : Fraction :=
  .finite ⟨negative, fraction.foldl (fun value digit => value * 10 + digit) whole,
    exponent - (fraction.length : Int)⟩

/-- A fraction without its sign. -/
def fractionSize? (negative : Bool) (text : List Char) : Option Fraction :=
  let (whole, tail) := text.span (· != '.')
  match tail with
  | [] => none
  | _ :: behind =>
    match Text.splitAt ':' whole with
    | [single] =>
      match decimalDigits? single, fractionTail? behind with
      | some digits, some (fraction, exponent) =>
        some (decimalOf negative (Text.ofDigits 10 digits) fraction exponent)
      | _, _ => none
    | first :: rest =>
      match decimalDigits? first, looseDigits? 10 behind with
      | some digits, some fraction =>
        (sixties? (Text.ofDigits 10 digits) rest).map fun size =>
          decimalOf negative size fraction 0
      | _, _ => none
    | [] => none

/-- A fraction that begins with its point, which has no sign. -/
def pointFirst? (text : List Char) : Option Fraction :=
  match text with
  | '.' :: c :: rest =>
    if (digitIn? 10 c).isSome then
      (fractionTail? (c :: rest)).map fun parts => decimalOf false 0 parts.1 parts.2
    else
      none
  | _ => none

def fraction? (text : List Char) : Option Fraction :=
  let (negative, size) := Text.takeSign text
  if String.ofList size ∈ infinityNames then some (.infinite negative)
  else if String.ofList text ∈ undefinedNames then some .undefined
  else
    match pointFirst? text with
    | some fraction => some fraction
    | none => fractionSize? negative size

def whole? (text : List Char) : Option (Except Fault Int) :=
  let (negative, size) := Text.takeSign text
  (wholeSize? size).map fun size => size.map (Text.signed negative)

/-- What a plain scalar is for: to merge a mapping, to be the default key, or
to denote a value. -/
inductive Plain where
  | merge
  | default
  | value (value : Except Fault Value)

def Plain.ofText (text : List Char) : Plain :=
  let name := String.ofList text
  if name ∈ nullNames then .value (.ok .null)
  else if name ∈ setNames then .value (.ok (.bool true))
  else if name ∈ unsetNames then .value (.ok (.bool false))
  else if name = "<<" then .merge
  else if name = "=" then .default
  else
    match fraction? text with
    | some fraction => .value (.ok (.fraction fraction))
    | none =>
      match whole? text with
      | some whole => .value (whole.map Value.int)
      | none =>
        match Moment.ofText? text with
        | none => .value (.ok (.string name))
        | some moment =>
          match moment.fault? with
          | some fault => .value (.error (.moment fault))
          | none => .value (.ok (.moment name))

end Yaml
end FiniteAutomata
