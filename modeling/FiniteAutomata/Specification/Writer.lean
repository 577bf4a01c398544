import FiniteAutomata.Automaton.Formal

namespace FiniteAutomata
namespace Specification

/-!
# Writing a specification

The specification of an automaton: its alphabet, its states, its start if it
has one, its accepting states, and one line for each move, by states in the
order of the arena.  Names and symbols are written as they are, so an alphabet
line carries only symbols that are no marks of the format.
-/

def moveLine (move : String × Char × String) : String :=
  "(" ++ move.1 ++ ", " ++ String.singleton move.2.1 ++ ")->" ++ move.2.2

def writtenLines (automaton : Automaton) : List String :=
  ["alphabet=" ++ Formal.alphabet automaton, "state=" ++ Formal.states automaton] ++
    (match automaton.startState? with
      | some state => ["start_state=" ++ state.name]
      | none => []) ++
    ["F=" ++ Formal.accepting automaton] ++ automaton.transitions.map moveLine

def write (automaton : Automaton) : String :=
  Text.joined "\n" (writtenLines automaton) ++ "\n"

end Specification
end FiniteAutomata
