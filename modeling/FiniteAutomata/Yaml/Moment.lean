import FiniteAutomata.Text.Number
import FiniteAutomata.Yaml.Fault

namespace FiniteAutomata
namespace Yaml

/-!
# Dates and times

A date is written with four digits for the year, and two for the month and for
the day; in front of a time of day these two may be shorter.  A time may have a
fraction of a second and an offset from the meridian.  Whether the calendar has
such a date is another question, which `Moment.fault?` answers: first for the
offset, then from the year down to the second.
-/

/-- A time of day, with its offset in minutes if it has one. -/
structure TimeOfDay where
  hour : Nat
  minute : Nat
  second : Nat
  offset : Option Int
deriving DecidableEq, Repr

/-- A date as it is written, alone or with a time of day. -/
structure Moment where
  year : Nat
  month : Nat
  day : Nat
  time : Option TimeOfDay
deriving DecidableEq, Repr

namespace Moment

/-! ## Reading -/

/-- The number at the front of a text that has at least and at most so many
digits, and the rest. -/
def number? (least most : Nat) (text : List Char) : Option (Nat × List Char) :=
  let digits := (text.take most).takeWhile fun c => (Text.basicDigit? c).isSome
  if least ≤ digits.length then
    some (Text.ofDigits 10 (digits.filterMap Text.basicDigit?), text.drop digits.length)
  else
    none

/-- A number as `number?` reads it, behind a character. -/
def numberAfter? (lead : Char) (least most : Nat) : List Char → Option (Nat × List Char)
  | c :: rest => if c = lead then number? least most rest else none
  | [] => none

/-- An offset after its sign: hours, and minutes behind a colon. -/
def offsetSize? (text : List Char) : Option Nat :=
  match number? 1 2 text with
  | some (hours, []) => some (hours * 60)
  | some (hours, rest) =>
    match numberAfter? ':' 2 2 rest with
    | some (minutes, []) => some (hours * 60 + minutes)
    | _ => none
  | none => none

/-- The zone at the end of a time: none, the letter of the meridian, or an
offset with a sign. -/
def zone? (text : List Char) : Option (Option Int) :=
  match text, text.dropWhile fun c => c == ' ' || c == '\t' with
  | [], _ => some none
  | _, ['Z'] => some none
  | _, '+' :: rest => (offsetSize? rest).map fun minutes => some (minutes : Int)
  | _, '-' :: rest => (offsetSize? rest).map fun minutes => some (-(minutes : Int))
  | _, _ => none

def time? (text : List Char) : Option TimeOfDay :=
  match number? 1 2 text with
  | none => none
  | some (hour, afterHour) =>
    match numberAfter? ':' 2 2 afterHour with
    | none => none
    | some (minute, afterMinute) =>
      match numberAfter? ':' 2 2 afterMinute with
      | none => none
      | some (second, afterSecond) =>
        let tail :=
          match afterSecond with
          | '.' :: rest => rest.dropWhile fun c => (Text.basicDigit? c).isSome
          | rest => rest
        (zone? tail).map fun offset => ⟨hour, minute, second, offset⟩

/-- The time behind a date: a letter or blanks come first. -/
def timeBehind? : List Char → Option TimeOfDay
  | c :: rest =>
    if c = 'T' ∨ c = 't' then time? rest
    else if c = ' ' ∨ c = '\t' then time? (rest.dropWhile fun c => c == ' ' || c == '\t')
    else none
  | [] => none

/-- A date whose month and day have at least so many digits, and the rest. -/
def date? (least : Nat) (text : List Char) : Option (Moment × List Char) :=
  match number? 4 4 text with
  | none => none
  | some (year, afterYear) =>
    match numberAfter? '-' least 2 afterYear with
    | none => none
    | some (month, afterMonth) =>
      (numberAfter? '-' least 2 afterMonth).map fun last =>
        (⟨year, month, last.1, none⟩, last.2)

def ofText? (text : List Char) : Option Moment :=
  match date? 2 text with
  | some (moment, []) => some moment
  | _ =>
    match date? 1 text with
    | some (moment, rest) =>
      (timeBehind? rest).map fun time => { moment with time := some time }
    | none => none

/-! ## The calendar -/

def isLeap (year : Nat) : Bool :=
  year % 4 = 0 && (year % 100 ≠ 0 || year % 400 = 0)

def daysIn (year month : Nat) : Nat :=
  if month = 2 then (if isLeap year then 29 else 28)
  else if month ∈ [4, 6, 9, 11] then 30
  else 31

def dateFault? (moment : Moment) : Option MomentFault :=
  if moment.year = 0 then some .year
  else if moment.month < 1 ∨ 12 < moment.month then some .month
  else if moment.day < 1 ∨ daysIn moment.year moment.month < moment.day then some .day
  else none

/-- What is wrong with the offset of a time, if anything is: it is less than a
day. -/
def offsetFault? (time : TimeOfDay) : Option MomentFault :=
  match time.offset with
  | some minutes => if minutes.natAbs < 1440 then none else some (.offset minutes)
  | none => none

def timeFault? (time : TimeOfDay) : Option MomentFault :=
  if 23 < time.hour then some .hour
  else if 59 < time.minute then some .minute
  else if 59 < time.second then some .second
  else none

def fault? (moment : Moment) : Option MomentFault :=
  ((moment.time.bind offsetFault?).or moment.dateFault?).or (moment.time.bind timeFault?)

end Moment
end Yaml
end FiniteAutomata
