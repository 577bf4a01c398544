import FiniteAutomata.Automaton.Basic
import FiniteAutomata.Text.Split

namespace FiniteAutomata
namespace Formal

/-!
# The formal definition

An automaton as the five-tuple of its states, its alphabet, its start state,
its transition function and its accepting states, and the transition function
as one equation for each move.
-/

/-- Texts in braces with commas between them. -/
def braced (items : List String) : String :=
  "\x7b" ++ Text.joined ", " items ++ "\x7d"

def states (automaton : Automaton) : String :=
  braced automaton.stateNames

def alphabet (automaton : Automaton) : String :=
  braced (automaton.alphabet.map String.singleton)

/-- The name of the start state, or nothing. -/
def start (automaton : Automaton) : String :=
  match automaton.startState? with
  | some state => state.name
  | none => ""

def accepting (automaton : Automaton) : String :=
  braced (automaton.acceptingStates.map State.name)

def equation (move : String × Char × String) : String :=
  "δ(" ++ move.1 ++ ", " ++ String.singleton move.2.1 ++ ") = " ++ move.2.2

def transitions (automaton : Automaton) : String :=
  Text.joined "\n" (automaton.transitions.map equation)

def tuple (automaton : Automaton) : String :=
  "A = <Q = " ++ states automaton ++ ", Σ = " ++ alphabet automaton ++ ", " ++ start automaton ++
    ", δ, F = " ++ accepting automaton ++ ">"

end Formal
end FiniteAutomata
