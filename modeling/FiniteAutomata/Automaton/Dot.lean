import FiniteAutomata.Automaton.Basic
import FiniteAutomata.Entries
import FiniteAutomata.Text.Split

namespace FiniteAutomata
namespace Dot

/-!
# DOT graphs

An automaton as a directed graph in the DOT language: a node with a double
circle for each accepting state, a point with an edge to the start state, and
for each state one edge to each of its targets, labelled with the symbols that
lead there.
-/

/-- The symbols that lead to each target, with the targets in the order in
which they are reached first. -/
def addGrouped (groups : List (String × List Char)) : List (String × Char) →
    List (String × List Char)
  | [] => groups
  | (target, symbol) :: rest =>
    let known := (groups.lookup target).getD []
    addGrouped (Entries.insert target (known ++ [symbol]) groups) rest

/-- The edges of one state. -/
def grouped (automaton : Automaton) (state : State) : List (String × List Char) :=
  addGrouped [] (state.moves.map fun move => (automaton.nameAt move.2, move.1))

/-- A symbol in a label; a quote would end the label. -/
def labelChar (symbol : Char) : String :=
  if symbol = '"' then "\\\"" else String.singleton symbol

def label (symbols : List Char) : String :=
  Text.joined "," (symbols.map labelChar)

def acceptingLine (name : String) : String :=
  "  \"" ++ name ++ "\" [shape=doublecircle];"

def startLines (name : String) : List String :=
  ["  __start__ [shape=point];", "  __start__ -> \"" ++ name ++ "\";"]

def edgeLine (source target : String) (symbols : List Char) : String :=
  "  \"" ++ source ++ "\" -> \"" ++ target ++ "\" [label=\"" ++ label symbols ++ "\"];"

def edgeLines (automaton : Automaton) (state : State) : List String :=
  (grouped automaton state).map fun group => edgeLine state.name group.1 group.2

def writtenLines (automaton : Automaton) : List String :=
  ["digraph DFA \x7b", "  rankdir=LR;", "  node [shape=circle];"] ++
    automaton.acceptingStates.map (fun state => acceptingLine state.name) ++
    (match automaton.startState? with
      | some state => startLines state.name
      | none => []) ++
    automaton.states.flatMap (edgeLines automaton) ++ ["\x7d"]

def write (automaton : Automaton) : String :=
  Text.joined "\n" (writtenLines automaton) ++ "\n"

end Dot
end FiniteAutomata
