import FiniteAutomata.Automaton.Fault
import FiniteAutomata.Text.Blank
import FiniteAutomata.Text.Split

namespace FiniteAutomata
namespace Specification

/-!
# Lines of a specification

A specification is read line by line, each without the blanks at its ends.
The way a line begins says what it is about; a line that begins in no known
way says nothing.  Lists of names stand between braces, which may be left out
or misplaced, and are separated by commas.  A line that begins with an opening
parenthesis describes one move.
-/

/-- What a line is about. -/
inductive Line where
  | alphabet (symbols : List Char)
  | states (names : List String)
  | start (name : String)
  | accepting (names : List String)
  | move (text : List Char)
  | other
deriving DecidableEq, Repr

/-- The braces around lists, which carry no meaning. -/
def isBrace (c : Char) : Bool :=
  c == '\x7b' || c == '\x7d'

/-- The characters that cannot be symbols of an alphabet line. -/
def isListMark (c : Char) : Bool :=
  c == ',' || isBrace c || Text.isBlank c

/-- The names of a list, without the blanks around them. -/
def names (text : List Char) : List String :=
  (((Text.splitAt ',' (text.filter fun c => !isBrace c)).map Text.trimmed).filter
    fun name => !name.isEmpty).map String.ofList

/-- The symbols of an alphabet line: every character that is no mark. -/
def symbols (text : List Char) : List Char :=
  text.filter fun c => !isListMark c

/-- The texts that begin the known lines. -/
def alphabetHead : List Char := "alphabet=".toList
def statesHead : List Char := "state=".toList
def startHead : List Char := "start_state=".toList
def acceptingHead : List Char := "F=".toList

/-- What a line without blanks at its ends is about. -/
def Line.ofText (line : List Char) : Line :=
  match Text.after? alphabetHead line with
  | some value => .alphabet (symbols value)
  | none =>
    match Text.after? statesHead line with
    | some value => .states (names value)
    | none =>
      match Text.after? startHead line with
      | some value => .start (String.ofList (Text.trimmed value))
      | none =>
        match Text.after? acceptingHead line with
        | some value => .accepting (names value)
        | none =>
          match line with
          | '(' :: _ => .move line
          | _ => .other

/-! ## Moves -/

/-- A move as a line describes it.  The token is what stands where the symbol
should be. -/
structure Edge where
  source : String
  token : String
  target : String
deriving DecidableEq, Repr

/-- What stands between an opening and a closing parenthesis. -/
def insideParentheses? (text : List Char) : Option (List Char) :=
  match text with
  | '(' :: rest => if rest.getLast? = some ')' then some rest.dropLast else none
  | _ => none

/-- The move that a line describes. -/
def Edge.ofLine (line : List Char) : Except Malformation Edge :=
  match Text.splitArrows line with
  | [left, right] =>
    match insideParentheses? (Text.trimmed left) with
    | none => .error .sourceShape
    | some inner =>
      match Text.cutAt ',' inner with
      | none => .error .commaMissing
      | some (before, behind) =>
        let edge : Edge :=
          ⟨String.ofList (Text.trimmed before), String.ofList (Text.trimmed behind),
            String.ofList (Text.trimmed right)⟩
        if edge.source.isEmpty then .error .stateMissing
        else if edge.token.isEmpty then .error .symbolMissing
        else if edge.target.isEmpty then .error .targetMissing
        else .ok edge
  | _ => .error .arrowCount

/-- The symbol of a token: its only character or, if tokens are truncated, its
first. -/
def Edge.symbol (truncate : Bool) (edge : Edge) : Except Malformation Char :=
  match edge.token.toList with
  | [] => .error .symbolMissing
  | [symbol] => .ok symbol
  | symbol :: _ => if truncate then .ok symbol else .error (.longSymbol edge.token)

def Edge.isLong (edge : Edge) : Bool :=
  edge.token.toList.length != 1

end Specification
end FiniteAutomata
