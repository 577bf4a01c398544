namespace FiniteAutomata
namespace Yaml

/-!
# What can be wrong with a configuration text

Most texts that are refused break the grammar.  Others keep it, but something
in them denotes nothing: an escape past the last character, a number without
digits or with too many, a date that is in no calendar.  These have words of
their own.
-/

/-- What is wrong with a date or a time.  An offset is given in minutes. -/
inductive MomentFault where
  | year
  | month
  | day
  | hour
  | minute
  | second
  | offset (minutes : Int)
deriving DecidableEq, Repr

/-- Why a configuration text cannot be read. -/
inductive Fault where
  | malformed
  | tooDeep
  | noCharacter
  | hugeCode
  | noDigits (base : Nat)
  | longNumber (digits : Nat)
  | moment (fault : MomentFault)
deriving DecidableEq, Repr

/-- An offset in days and seconds, of which the seconds are not negative. -/
def offsetText (minutes : Int) : String :=
  let days := minutes.fdiv 1440
  let seconds := minutes.fmod 1440 * 60
  "datetime.timedelta(days=" ++ toString days ++
    (if seconds = 0 then "" else ", seconds=" ++ toString seconds) ++ ")"

def MomentFault.message : MomentFault → String
  | .year => "year 0 is out of range"
  | .month => "month must be in 1..12"
  | .day => "day is out of range for month"
  | .hour => "hour must be in 0..23"
  | .minute => "minute must be in 0..59"
  | .second => "second must be in 0..59"
  | .offset minutes =>
    "offset must be a timedelta strictly between -timedelta(hours=24) and " ++
      "timedelta(hours=24), not " ++ offsetText minutes ++ "."

/-- A fault in words, if it has any of its own. -/
def Fault.message? : Fault → Option String
  | .malformed => none
  | .tooDeep => none
  | .hugeCode => none
  | .noCharacter => some "chr() arg not in range(0x110000)"
  | .noDigits base => some ("invalid literal for int() with base " ++ toString base ++ ": ''")
  | .longNumber digits =>
    some ("Exceeds the limit (4300 digits) for integer string conversion: value has " ++
      toString digits ++ " digits; use sys.set_int_max_str_digits() to increase the limit")
  | .moment fault => some fault.message

end Yaml
end FiniteAutomata
