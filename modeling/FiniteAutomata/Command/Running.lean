import FiniteAutomata.Automaton.Record
import FiniteAutomata.Automaton.Run
import FiniteAutomata.Command.Report

namespace FiniteAutomata
namespace Command

/-!
# Running words

Words are run one after another, each for itself, and reported in their order.
The first word that is longer than the limit ends the command: it is not run,
nor is any word behind it.  Without such a word the exit code says whether
every word is accepted.
-/

/-- What is reported about a run: its record as one line of JSON, or the
verdict, and on demand the path. -/
def runText (trace json : Bool) (result : RunResult) : String :=
  if json then Report.line result.toJson
  else
    Report.line (Text.quoted result.word ++ ": " ++ result.verdictLine) ++
      (if trace then Report.line ("  path: " ++ Text.joined " -> " result.path) else "")

/-- The words for a word that is too long. -/
def longWordMessage (limit : Int) : String :=
  "word longer than " ++ toString limit ++ " symbols"

/-- The end of a command after the run of a word. -/
def endingAfter (result : RunResult) (ending : Except Failure ExitCode) :
    Except Failure ExitCode :=
  match ending with
  | .ok .success => if result.accepted then .ok .success else .ok .rejected
  | other => other

def runWords (automaton : Automaton) (limit : Int) (trace json : Bool) : List String → Report
  | [] => .success ""
  | word :: rest =>
    if limit < word.length then .refused (longWordMessage limit)
    else
      let result := automaton.run word
      let later := runWords automaton limit trace json rest
      ⟨endingAfter result later.ending, runText trace json result ++ later.output, later.errors,
        result.event :: later.events⟩

end Command
end FiniteAutomata
