import FiniteAutomata.Log.Entry

namespace FiniteAutomata
namespace Log

/-!
# Events

What the parts of the library report, as one type.  An event carries what it
is about; the level, the source, the name and the fields of its entry follow
from it.
-/

/-- What a part of the library reports. -/
inductive Event where
  | acceptStatesIgnored (line : Nat) (names : List String)
  | symbolOutsideAlphabet (line : Nat) (symbol : Char)
  | symbolTruncated (token : String) (used : Char)
  | lineIgnored (line : Nat) (text : String)
  | readingFailed (line : Nat) (message : String)
  | readWithoutStart (states : Nat)
  | specificationRead (states alphabet accepting : Nat)
  | moveAdded (state : String) (symbol : Char) (target : String)
  | automatonBuilt (states alphabet : Nat) (start : Option String)
  | runWithoutStart (word : String)
  | runStuck (word state : String) (symbol : Char) (consumed : Nat)
  | runFinished (word finalState : String) (accepted : Bool)
  | interviewWithoutStates
  | specificationMissing (message : String)
deriving DecidableEq, Repr

namespace Event

def level : Event → Level
  | .acceptStatesIgnored .. => .debug
  | .symbolOutsideAlphabet .. => .warning
  | .symbolTruncated .. => .warning
  | .lineIgnored .. => .debug
  | .readingFailed .. => .error
  | .readWithoutStart .. => .info
  | .specificationRead .. => .info
  | .moveAdded .. => .debug
  | .automatonBuilt .. => .debug
  | .runWithoutStart .. => .debug
  | .runStuck .. => .debug
  | .runFinished .. => .debug
  | .interviewWithoutStates => .info
  | .specificationMissing .. => .error

def source : Event → String
  | .acceptStatesIgnored .. | .symbolOutsideAlphabet .. | .symbolTruncated .. | .lineIgnored ..
  | .readingFailed .. | .readWithoutStart .. | .specificationRead .. => "dfa_core.spec_parser"
  | .moveAdded .. | .automatonBuilt .. => "dfa_core.builder"
  | .runWithoutStart .. | .runStuck .. | .runFinished .. => "dfa_core.engine"
  | .interviewWithoutStates => "dfa_core.interactive"
  | .specificationMissing .. => "dfa_core.cli"

def name : Event → String
  | .acceptStatesIgnored .. => "accept_states_ignored"
  | .symbolOutsideAlphabet .. => "transition_symbol_outside_alphabet"
  | .symbolTruncated .. => "transition_symbol_truncated"
  | .lineIgnored .. => "line_ignored"
  | .readingFailed .. => "spec_parse_failed"
  | .readWithoutStart .. => "spec_without_start_state"
  | .specificationRead .. => "spec_parsed"
  | .moveAdded .. => "transition_added"
  | .automatonBuilt .. => "dfa_built"
  | .runWithoutStart .. => "run_rejected"
  | .runStuck .. => "run_rejected"
  | .runFinished .. => "run_finished"
  | .interviewWithoutStates => "interactive_build_without_states"
  | .specificationMissing .. => "spec_file_not_found"

private def count (value : Nat) : Value := .int value

private def letter (symbol : Char) : Value := .string (String.singleton symbol)

def fields : Event → List (String × Value)
  | .acceptStatesIgnored line names =>
    [("line_no", count line), ("names", .list (names.map Value.string))]
  | .symbolOutsideAlphabet line symbol => [("line_no", count line), ("symbol", letter symbol)]
  | .symbolTruncated token used => [("symbol", .string token), ("used", letter used)]
  | .lineIgnored line text => [("line_no", count line), ("line", .string text)]
  | .readingFailed line message => [("line_no", count line), ("error", .string message)]
  | .readWithoutStart states => [("states", count states)]
  | .specificationRead states alphabet accepting =>
    [("states", count states), ("alphabet", count alphabet), ("accept_states", count accepting)]
  | .moveAdded state symbol target =>
    [("state", .string state), ("symbol", letter symbol), ("next_state", .string target)]
  | .automatonBuilt states alphabet start =>
    [("states", count states), ("alphabet", count alphabet),
      ("start", match start with | some name => .string name | none => .null)]
  | .runWithoutStart word => [("word", .string word), ("reason", .string "no_start_state")]
  | .runStuck word state symbol consumed =>
    [("word", .string word), ("state", .string state), ("symbol", letter symbol),
      ("consumed", count consumed)]
  | .runFinished word finalState accepted =>
    [("word", .string word), ("final_state", .string finalState), ("accepted", .bool accepted)]
  | .interviewWithoutStates => []
  | .specificationMissing message => [("error", .string message)]

def entry (event : Event) : Entry :=
  ⟨event.level, event.source, event.name, event.fields⟩

end Event
end Log
end FiniteAutomata
