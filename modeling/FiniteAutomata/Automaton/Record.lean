import FiniteAutomata.Automaton.Candidate
import FiniteAutomata.Automaton.Run
import FiniteAutomata.Conversion.Record
import FiniteAutomata.Json.Reader
import FiniteAutomata.Json.Writer

namespace FiniteAutomata

open Conversion (Form Converted Rejected Problem)

/-!
# Automata as records

The record of an automaton: its states, each with its name, its flag and its
moves as a map from symbols to positions, its alphabet and its start position.
Any value converts to a candidate or to a list of problems, and a candidate
that is no automaton is one more problem.  Outcomes of runs are only written.
-/

/-- The members of a value that should be a record. -/
def Conversion.members (form : Form) (record : String) : Value → Converted (List (String × Value))
  | .object members => .ok members
  | _ => Conversion.alone (.error (.notRecord form record))

namespace CandidateState

def recordName : String := "State"

def ofMembers (form : Form) (members : List (String × Value)) : Converted CandidateState :=
  (Conversion.both
    (Conversion.field members "name" fun value => Conversion.alone (Conversion.text value))
    (Conversion.both
      (Conversion.fieldOr false members "is_accept" fun value =>
        Conversion.alone (Conversion.flag value))
      (Conversion.fieldOr [] members "transitions"
        (Conversion.map form fun value => Conversion.alone (Conversion.whole value))))).map
    fun parts => ⟨parts.1, parts.2.1, parts.2.2⟩

def ofValue (form : Form) (value : Value) : Converted CandidateState :=
  match Conversion.members form recordName value with
  | .ok members => ofMembers form members
  | .error problems => .error problems

end CandidateState

namespace Candidate

def recordName : String := "DFA"

/-- The alphabet and the start among the members of a record. -/
def frameOfMembers (form : Form) (members : List (String × Value)) :
    Converted (List String × Option Int) :=
  Conversion.both
    (Conversion.fieldOr [] members "alphabet"
      (Conversion.list form fun value => Conversion.alone (Conversion.text value)))
    (Conversion.fieldOr none members "start"
      (Conversion.optional fun value => Conversion.alone (Conversion.whole value)))

def ofMembers (form : Form) (members : List (String × Value)) : Converted Candidate :=
  (Conversion.both
    (Conversion.fieldOr [] members "states" (Conversion.list form (CandidateState.ofValue form)))
    (frameOfMembers form members)).map
    fun parts => ⟨parts.1, parts.2.1, parts.2.2⟩

def ofValue (form : Form) (value : Value) : Converted Candidate :=
  match Conversion.members form recordName value with
  | .ok members => ofMembers form members
  | .error problems => .error problems

/-- The automaton of a converted candidate. -/
def conclude (converted : Converted Candidate) : Except Rejected Automaton :=
  match converted with
  | .error problems => .error ⟨recordName, problems⟩
  | .ok candidate =>
    match candidate.check with
    | .ok automaton => .ok automaton
    | .error fault => .error ⟨recordName, [⟨[], .refused fault.message⟩]⟩

end Candidate

namespace Automaton

def ofValue (value : Value) : Except Rejected Automaton :=
  Candidate.conclude (Candidate.ofValue .plain value)

def ofJson (text : String) : Except Rejected Automaton :=
  match Json.read? text with
  | some value => Candidate.conclude (Candidate.ofValue .json value)
  | none => .error ⟨Candidate.recordName, [⟨[], .notJson⟩]⟩

/-- Convert the states of an arena, which are given as records of their own,
up to the first that is rejected. -/
def convertStates : List (List (String × Value)) → Except Rejected (List CandidateState)
  | [] => .ok []
  | members :: rest =>
    match CandidateState.ofMembers .plain members with
    | .error problems => .error ⟨CandidateState.recordName, problems⟩
    | .ok state => (convertStates rest).map (state :: ·)

/-- The automaton of an arena: the members of its states, and those of the
automaton itself. -/
def ofArena (states : List (List (String × Value))) (members : List (String × Value)) :
    Except Rejected Automaton :=
  match convertStates states with
  | .error rejected => .error rejected
  | .ok converted =>
    Candidate.conclude ((Candidate.frameOfMembers .plain members).map
      fun parts => ⟨converted, parts.1, parts.2⟩)

/-! ## Writing -/

/-- A position in a record. -/
def positionValue (index : Nat) : Value := .int index

def stateValue (state : State) : Value :=
  .object
    [("name", .string state.name), ("is_accept", .bool state.accepting),
      ("transitions",
        .object (state.moves.map fun move => (String.singleton move.1, positionValue move.2)))]

def toValue (automaton : Automaton) : Value :=
  .object
    [("states", .list (automaton.states.map stateValue)),
      ("alphabet", .list (automaton.alphabet.map fun symbol => .string (String.singleton symbol))),
      ("start", match automaton.start with | some index => positionValue index | none => .null)]

def toJson (automaton : Automaton) : String :=
  Json.write automaton.toValue

end Automaton

namespace RunResult

/-- A text that may be missing. -/
def textValue : Option String → Value
  | some text => .string text
  | none => .null

def toValue (result : RunResult) : Value :=
  .object
    [("word", .string result.word), ("accepted", .bool result.accepted),
      ("final_state", textValue result.finalState), ("reason", textValue result.reasonText?),
      ("symbol", textValue (result.symbol.map String.singleton)),
      ("path", .list (result.path.map Value.string)), ("consumed", .int result.consumed)]

def toJson (result : RunResult) : String :=
  Json.write result.toValue

end RunResult
end FiniteAutomata
