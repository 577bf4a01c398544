import FiniteAutomata.Automaton.Dot
import FiniteAutomata.Automaton.Formal
import FiniteAutomata.Command.Invocation
import FiniteAutomata.Command.Report
import FiniteAutomata.Specification.Writer

namespace FiniteAutomata
namespace Command

/-!
# Showing an automaton

The sections of an automaton, one after another, each ended by a line feed.
Texts that end in line feeds of their own end in one here.
-/

/-- A text without the line feeds at its end. -/
def withoutFinalFeeds (text : String) : String :=
  String.ofList (text.toList.reverse.dropWhile (· == '\n')).reverse

def Section.text (automaton : Automaton) : Section → String
  | .states => Formal.states automaton
  | .alphabet => Formal.alphabet automaton
  | .start => Formal.start automaton
  | .accepting => Formal.accepting automaton
  | .tuple => Formal.tuple automaton
  | .transitions => Formal.transitions automaton
  | .dot => withoutFinalFeeds (Dot.write automaton)
  | .specification => withoutFinalFeeds (Specification.write automaton)

/-- The sections that are shown if none is chosen. -/
def usualSections : List Section :=
  [.tuple, .transitions]

def sectionsText (automaton : Automaton) (sections : List Section) : String :=
  Text.joined "" (sections.map fun part => Report.line (part.text automaton))

def showSections (automaton : Automaton) (sections : List Section) : Report :=
  .success (sectionsText automaton (if sections.isEmpty then usualSections else sections))

end Command
end FiniteAutomata
