import FiniteAutomata.Automaton.Fault
import FiniteAutomata.Log.Event
import FiniteAutomata.Settings.Load

namespace FiniteAutomata
namespace Command

open Log (Event)

/-!
# Reports

What a command leaves behind: how it ends, the text on its standard output and
on its error output, and the events on the way.  A command ends with an exit
code if it can say in one line what was wrong, and with a failure otherwise.
-/

/-- How a command ends that comes to its end. -/
inductive ExitCode where
  | success
  | rejected
  | refused
deriving DecidableEq, Repr

def ExitCode.number : ExitCode → Nat
  | .success => 0
  | .rejected => 1
  | .refused => 2

/-- What breaks a command off. -/
inductive Failure where
  | settings (failure : Settings.Failure)
  | file (fault : FileFault)
  | octets (fault : Text.DecodingFault)
  | interview (fault : Fault)
  | outOfAnswers
deriving DecidableEq, Repr

/-- The words for an input that ends in the middle of an interview. -/
def outOfAnswersMessage : String := "EOF when reading a line"

def Failure.message : Failure → String
  | .settings (.file fault) => fault.message
  | .settings (.octets fault) => fault.message
  | .settings (.configuration fault) =>
    fault.message?.getD "the configuration file cannot be read"
  | .settings (.notMapping name) => Settings.notMappingMessage name
  | .settings .keyNotText => "the configuration file has a key that is no text"
  | .settings (.rejected rejected) => Settings.rejectedMessage rejected
  | .file fault => fault.message
  | .octets fault => fault.message
  | .interview fault => fault.message
  | .outOfAnswers => outOfAnswersMessage

/-- What a command leaves behind. -/
structure Report where
  ending : Except Failure ExitCode
  output : String
  errors : String
  events : List Event

namespace Report

def line (text : String) : String := text ++ "\n"

/-- A command that ends well. -/
def success (output : String) : Report :=
  ⟨.ok .success, output, "", []⟩

/-- A command that is refused in one line. -/
def refused (message : String) : Report :=
  ⟨.ok .refused, "", line ("error: " ++ message), []⟩

def failed (failure : Failure) : Report :=
  ⟨.error failure, "", "", []⟩

/-- A report with events before it. -/
def after (events : List Event) (report : Report) : Report :=
  { report with events := events ++ report.events }

/-- A report with output before it. -/
def following (output : String) (report : Report) : Report :=
  { report with output := output ++ report.output }

end Report
end Command
end FiniteAutomata
