import FiniteAutomata.Conversion.Record
import FiniteAutomata.Log.Entry
import FiniteAutomata.Text.Blank
import FiniteAutomata.Text.UpperCase

namespace FiniteAutomata

open Conversion (Converted Rejected)

/-!
# Settings

The settings of a command: from which level on entries are logged, the
directory for log files if there is one, whether long tokens in specifications
are cut, and the longest word that is run.  They are converted from a record
in which every field may be left out.
-/

structure Settings where
  logLevel : Log.Level
  logDirectory : Option String
  truncateSymbols : Bool
  maxWordLength : Int
deriving DecidableEq, Repr

/-- The name of a level in settings. -/
def Log.Level.label : Log.Level → String
  | .debug => "DEBUG"
  | .info => "INFO"
  | .warning => "WARNING"
  | .error => "ERROR"
  | .critical => "CRITICAL"

/-- The level of a name in settings. -/
def Log.Level.ofLabel? (label : String) : Option Log.Level :=
  [Log.Level.debug, .info, .warning, .error, .critical].find? fun level => level.label == label

namespace Settings

def recordName : String := "Settings"

/-- The settings that hold if nothing is set. -/
def standard : Settings :=
  ⟨.warning, none, false, 10000⟩

/-- A level by its name in any letter case, with blanks around it. -/
def levelOfText (text : String) : Except Conversion.Trouble Log.Level :=
  let label := Text.upper (Text.trim text)
  match Log.Level.ofLabel? label with
  | some level => .ok level
  | none => .error (.refused ("Unknown log level: " ++ label))

def level (value : Value) : Except Conversion.Trouble Log.Level :=
  match Conversion.text value with
  | .ok text => levelOfText text
  | .error trouble => .error trouble

def positive (value : Value) : Except Conversion.Trouble Int :=
  match Conversion.whole value with
  | .ok whole => if 0 < whole then .ok whole else .error .notPositive
  | .error trouble => .error trouble

def ofMembers (members : List (String × Value)) : Converted Settings :=
  (Conversion.both
    (Conversion.fieldOr standard.logLevel members "log_level" fun value =>
      Conversion.alone (level value))
    (Conversion.both
      (Conversion.fieldOr standard.logDirectory members "log_dir"
        (Conversion.optional fun value => Conversion.alone (Conversion.text value)))
      (Conversion.both
        (Conversion.fieldOr standard.truncateSymbols members "truncate_symbols" fun value =>
          Conversion.alone (Conversion.flag value))
        (Conversion.fieldOr standard.maxWordLength members "max_word_length" fun value =>
          Conversion.alone (positive value))))).map
    fun parts => ⟨parts.1, parts.2.1, parts.2.2.1, parts.2.2.2⟩

/-- The settings of a record, or its problems. -/
def ofRecord (members : List (String × Value)) : Except Rejected Settings :=
  (ofMembers members).mapError fun problems => ⟨recordName, problems⟩

def toMembers (settings : Settings) : List (String × Value) :=
  [("log_level", .string settings.logLevel.label),
    ("log_dir", match settings.logDirectory with | some name => .string name | none => .null),
    ("truncate_symbols", .bool settings.truncateSymbols),
    ("max_word_length", .int settings.maxWordLength)]

/-- The same settings with another level, which is given by its name. -/
def withLevel (settings : Settings) (name : String) : Except Rejected Settings :=
  ofRecord (Entries.insert "log_level" (.string name) settings.toMembers)

end Settings
end FiniteAutomata
