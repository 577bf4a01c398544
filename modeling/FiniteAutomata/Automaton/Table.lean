import FiniteAutomata.Automaton.Draft
import FiniteAutomata.Log.Reported

namespace FiniteAutomata

open Log (Reported)

/-!
# Tables

A table names the parts of an automaton: its states, its alphabet, a row of
moves for each state, the start and the accepting states.  Rows and cells are
maps, so where a key recurs its last value counts.  Unlike in a specification,
every name of an accepting state has to be known.
-/

/-- An automaton by names. -/
structure Table where
  states : List String
  alphabet : List String
  rows : List (String × List (String × String))
  start : String
  accepting : List String
deriving DecidableEq, Repr

namespace Table

/-- Carry out a step of a draft for each item of a list. -/
def each {α : Type} (step : Draft → α → Except Fault Draft) (draft : Draft) :
    List α → Except Fault Draft
  | [] => .ok draft
  | item :: rest =>
    match step draft item with
    | .ok next => each step next rest
    | .error fault => .error fault

/-- The moves of a table: source, symbol, target. -/
def moves (table : Table) : List (String × String × String) :=
  (Entries.collapse table.rows).flatMap fun row =>
    (Entries.collapse row.2).map fun cell => (row.1, cell.1, cell.2)

/-- Give a draft moves, and report each. -/
def addMoves (draft : Draft) : List (String × String × String) → Reported Fault Draft
  | [] => .silent (.ok draft)
  | (source, symbol, target) :: rest =>
    (draft.move source symbol target).andThen fun next => addMoves next rest

/-- The draft of everything that comes before the moves. -/
def declared (table : Table) : Except Fault Draft :=
  match each Draft.addSymbol Draft.empty table.alphabet with
  | .error fault => .error fault
  | .ok withSymbols =>
    match each (fun draft name => draft.addState name false) withSymbols table.states with
    | .error fault => .error fault
    | .ok withStates =>
      each (fun draft name => draft.setAccepting name true) withStates table.accepting

def build (table : Table) : Reported Fault Automaton :=
  (Reported.silent table.declared).andThen fun draft =>
    (addMoves draft table.moves).andThen fun withMoves =>
      (Reported.silent (withMoves.setStart table.start)).andThen Draft.finish

end Table
end FiniteAutomata
