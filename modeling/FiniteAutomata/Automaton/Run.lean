import FiniteAutomata.Automaton.Basic
import FiniteAutomata.Log.Event

namespace FiniteAutomata

/-!
# Runs

A run reads a word symbol by symbol from the start state.  It stops at the
first symbol without a move and leaves the rest of the word unread.  A word is
accepted if all of it is read and the state reached is accepting; everything
else is a rejection with its reason, and no error.
-/

/-- Why a word is rejected. -/
inductive Rejection where
  | noStart
  | noMove (symbol : Char) (state : String)
  | notAccepting (state : String)
deriving DecidableEq, Repr

def Rejection.message : Rejection → String
  | .noStart => "automaton has no start state"
  | .noMove symbol state =>
    "no transition for symbol '" ++ String.singleton symbol ++ "' from state '" ++ state ++ "'"
  | .notAccepting state => "ended in non-accepting state '" ++ state ++ "'"

structure RunResult where
  word : String
  accepted : Bool
  finalState : Option String
  reason : Option Rejection
  symbol : Option Char
  path : List String
  consumed : Nat
deriving DecidableEq, Repr

namespace RunResult

def verdict (result : RunResult) : String :=
  if result.accepted then "The word is accepted by the automaton."
  else "The word is rejected by the automaton."

def reasonText? (result : RunResult) : Option String :=
  result.reason.map Rejection.message

/-- The verdict, with the reason if it is a rejection. -/
def verdictLine (result : RunResult) : String :=
  if result.accepted then result.verdict
  else result.verdict ++ " (" ++ result.reasonText?.getD "None" ++ ")"

end RunResult

namespace Automaton

/-- The positions reached from a position by the symbols of a word, and the
part of the word from the first symbol without a move on. -/
def walk (automaton : Automaton) (index : Nat) : List Char → List Nat × List Char
  | [] => ([], [])
  | symbol :: rest =>
    match automaton.step index symbol with
    | none => ([], symbol :: rest)
    | some next =>
      let (reached, unread) := automaton.walk next rest
      (next :: reached, unread)

def runFrom (automaton : Automaton) (start : Nat) (word : String) : RunResult :=
  let (reached, unread) := automaton.walk start word.toList
  let last := reached.getLast?.getD start
  let name := automaton.nameAt last
  let path := (start :: reached).map automaton.nameAt
  match unread with
  | symbol :: _ =>
    ⟨word, false, some name, some (.noMove symbol name), some symbol, path, reached.length⟩
  | [] =>
    if automaton.acceptsAt last then ⟨word, true, some name, none, none, path, reached.length⟩
    else ⟨word, false, some name, some (.notAccepting name), none, path, reached.length⟩

def run (automaton : Automaton) (word : String) : RunResult :=
  match automaton.start with
  | none => ⟨word, false, none, some .noStart, none, [], 0⟩
  | some start => automaton.runFrom start word

def accepts (automaton : Automaton) (word : String) : Bool :=
  (automaton.run word).accepted

end Automaton

def RunResult.event (result : RunResult) : Log.Event :=
  match result.finalState, result.symbol with
  | none, _ => .runWithoutStart result.word
  | some state, some symbol => .runStuck result.word state symbol result.consumed
  | some state, none => .runFinished result.word state result.accepted

end FiniteAutomata
