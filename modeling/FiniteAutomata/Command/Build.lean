import FiniteAutomata.Command.Show
import FiniteAutomata.Interview.Transcript
import FiniteAutomata.Text.Lines

namespace FiniteAutomata
namespace Command

/-!
# Building an automaton

The standard input holds the answers of an interview, one a line.  The
automaton is shown and, on demand, its specification is written to a file.
-/

def answersOf (input : String) : List String :=
  (Text.feedLines input.toList).map String.ofList

/-- A turn of the interviewer on the output: an answer is expected on the same
line as its prompt. -/
def turnText : Interview.Turn → String
  | .ask prompt => prompt
  | .say remark => Report.line remark

def greeting : String :=
  Report.line "Create a deterministic finite automaton." ++ Report.line ""

/-- What was said in an interview. -/
def conversationText (transcript : Interview.Transcript) : String :=
  greeting ++ Text.joined "" (transcript.turns.map turnText)

/-- The words for a specification that has been written to a file. -/
def savedText (name : String) : String :=
  Report.line "" ++ Report.line ("Specification saved to " ++ name)

/-- Write the specification of an automaton to a file, if there is a name for
it.  The report on it comes with the tree after it. -/
def save (tree : FileTree) (automaton : Automaton) (name : Option String) : Report × FileTree :=
  match name.filter (· != "") with
  | none => (.success "", tree)
  | some name =>
    match tree.writeText name (Specification.write automaton) with
    | .ok after => (.success (savedText name), after)
    | .error fault => (.failed (.file fault), tree)

/-- Hold an interview, show the automaton and save it. -/
def buildByInterview (tree : FileTree) (input : String) (name : Option String) :
    Report × FileTree :=
  let transcript := Interview.interview (answersOf input)
  let conclude (output : String) (report : Report) : Report :=
    (report.following (conversationText transcript ++ output)).after transcript.events
  match transcript.ending with
  | .built automaton =>
    let (report, after) := save tree automaton name
    (conclude (sectionsText automaton usualSections) report, after)
  | .outOfAnswers => (conclude "" (.failed .outOfAnswers), tree)
  | .failed fault => (conclude "" (.failed (.interview fault)), tree)

end Command
end FiniteAutomata
