import FiniteAutomata.Automaton.Draft
import FiniteAutomata.Log.Reported
import FiniteAutomata.Specification.Line
import FiniteAutomata.Text.Lines

namespace FiniteAutomata
namespace Specification

open Log (Event Reported)

/-!
# Reading a specification

One pass from the first line to the last, with a draft that every line adds
to.  A name has to be declared by a line above the line that uses it, except
in the list of accepting states, where other names are left out.  The first
line that is refused ends the reading; the fault then says which line that
is, blank and unknown lines counted.

Every part gives the events it reports beside its result, in the order in
which they happen.
-/

/-- Give a draft the symbols that it does not have yet. -/
def addSymbols (draft : Draft) : List Char → Draft
  | [] => draft
  | symbol :: rest =>
    if symbol ∈ draft.alphabet then addSymbols draft rest
    else addSymbols { draft with alphabet := draft.alphabet ++ [symbol] } rest

/-- Give a draft new states, none of them accepting. -/
def addStates (draft : Draft) : List String → Except Fault Draft
  | [] => .ok draft
  | name :: rest =>
    match draft.addState name false with
    | .ok next => addStates next rest
    | .error fault => .error fault

/-- Give a draft the move that a line describes. -/
def addEdge (truncate : Bool) (number : Nat) (line : List Char) (draft : Draft) :
    Reported Fault Draft :=
  match Edge.ofLine line with
  | .error malformation => ⟨[], .error (.malformed malformation)⟩
  | .ok edge =>
    match edge.symbol truncate with
    | .error malformation => ⟨[], .error (.malformed malformation)⟩
    | .ok symbol =>
      let warnings :=
        (if edge.isLong then [Event.symbolTruncated edge.token symbol] else []) ++
          (if symbol ∈ draft.alphabet then [] else [Event.symbolOutsideAlphabet number symbol])
      match draft.addMove edge.source (String.singleton symbol) edge.target with
      | .ok next => ⟨warnings ++ [.moveAdded edge.source symbol edge.target], .ok next⟩
      | .error fault => ⟨warnings, .error fault⟩

/-- Read one line without blanks at its ends. -/
def readLine (truncate : Bool) (number : Nat) (line : List Char) (draft : Draft) :
    Reported Fault Draft :=
  match Line.ofText line with
  | .alphabet symbols => ⟨[], .ok (addSymbols draft symbols)⟩
  | .states names => ⟨[], addStates draft names⟩
  | .start name => ⟨[], draft.setStart name⟩
  | .accepting names =>
    let ignored := draft.unknownNames names
    ⟨if ignored.isEmpty then [] else [.acceptStatesIgnored number ignored],
      .ok (draft.markAccepting names)⟩
  | .move text => addEdge truncate number text draft
  | .other => ⟨[.lineIgnored number (String.ofList line)], .ok draft⟩

/-- Read lines, the first of which has a given number. -/
def readLines (truncate : Bool) (draft : Draft) : Nat → List (List Char) →
    Reported LocatedFault Draft
  | _, [] => ⟨[], .ok draft⟩
  | number, raw :: rest =>
    let line := Text.trimmed raw
    if line.isEmpty then readLines truncate draft (number + 1) rest
    else
      match readLine truncate number line draft with
      | ⟨events, .ok next⟩ =>
        let later := readLines truncate next (number + 1) rest
        ⟨events ++ later.events, later.result⟩
      | ⟨events, .error fault⟩ =>
        ⟨events ++ [.readingFailed number fault.message],
          .error ((LocatedFault.ofFault fault).atLine number (String.ofList line))⟩

/-- What is reported about an automaton when its specification has been
read. -/
def readEvent (automaton : Automaton) : Event :=
  .specificationRead automaton.states.length automaton.alphabet.length
    automaton.acceptingStates.length

/-- Read a specification.  With `truncate`, a token that is longer than a
symbol is cut to its first character; without, its line is refused. -/
def read (truncate : Bool) (text : String) : Reported LocatedFault Automaton :=
  match readLines truncate Draft.empty 1 (Text.lines text.toList) with
  | ⟨events, .error fault⟩ => ⟨events, .error fault⟩
  | ⟨events, .ok draft⟩ =>
    let events :=
      events ++
        (if draft.start.isNone then [.readWithoutStart draft.states.length] else [])
    match draft.finish with
    | ⟨later, .error fault⟩ => ⟨events ++ later, .error (LocatedFault.ofFault fault)⟩
    | ⟨later, .ok automaton⟩ => ⟨events ++ later ++ [readEvent automaton], .ok automaton⟩

end Specification
end FiniteAutomata
