import FiniteAutomata.Automaton.Candidate
import FiniteAutomata.Text.Quoted

namespace FiniteAutomata

/-!
# Faults

The causes for which a step of a draft or a line of a specification is
refused, and their wording.  A located fault also says where a fault was
found; its message names the line only if it has a number.
-/

/-- What is wrong with a line that should describe a move. -/
inductive Malformation where
  | arrowCount
  | sourceShape
  | commaMissing
  | stateMissing
  | symbolMissing
  | targetMissing
  | longSymbol (token : String)
  | stated (message : String)
deriving DecidableEq, Repr

def Malformation.message : Malformation → String
  | .arrowCount => "transition must contain exactly one '->'"
  | .sourceShape => "transition source must be written as '(state, symbol)'"
  | .commaMissing => "transition source is missing the ',' between state and symbol"
  | .stateMissing => "transition is missing its state"
  | .symbolMissing => "transition is missing its symbol"
  | .targetMissing => "transition is missing its target state"
  | .longSymbol token => "transition symbol '" ++ token ++ "' is longer than one character"
  | .stated message => message

/-- Why something about an automaton is refused.  A `stated` fault has only
its own words. -/
inductive Fault where
  | stated (message : String)
  | emptyName
  | paddedName (name : String)
  | reservedInName (name token : String)
  | wideSymbol (symbol : String)
  | repeatedSymbol (symbol : String)
  | repeatedState (name : String)
  | missingState (name : String)
  | missingTarget (name : String)
  | conflictingMove (state symbol existing requested : String)
  | malformed (malformation : Malformation)
  | broken (integrity : IntegrityFault)
deriving DecidableEq, Repr

def Fault.message : Fault → String
  | .stated message => message
  | .emptyName => "state name must not be empty"
  | .paddedName name => "state name " ++ Text.quoted name ++ " has surrounding whitespace"
  | .reservedInName name token =>
    "state name " ++ Text.quoted name ++ " must not contain '" ++ token ++ "'"
  | .wideSymbol symbol => "symbol " ++ Text.quoted symbol ++ " must be a single character"
  | .repeatedSymbol symbol => "symbol '" ++ symbol ++ "' is already in the alphabet"
  | .repeatedState name => "state '" ++ name ++ "' is already defined"
  | .missingState name => "state '" ++ name ++ "' does not exist"
  | .missingTarget name => "transition target state '" ++ name ++ "' does not exist"
  | .conflictingMove state symbol existing requested =>
    "state '" ++ state ++ "' already moves to '" ++ existing ++ "' on '" ++ symbol ++
      "', cannot also move to '" ++ requested ++ "'"
  | .malformed malformation => malformation.message
  | .broken integrity => integrity.message

/-- A fault with the line it was found on, as far as that is known.  Whoever
states a fault may give any number. -/
structure LocatedFault where
  fault : Fault
  number : Option Int
  line : Option String
deriving DecidableEq, Repr

namespace LocatedFault

/-- A fault of no particular line. -/
def ofFault (fault : Fault) : LocatedFault :=
  ⟨fault, none, none⟩

/-- The same fault at another place. -/
def moved (located : LocatedFault) (number : Option Int) (line : Option String) : LocatedFault :=
  { located with number := number, line := line }

/-- The same fault, found on a line. -/
def atLine (located : LocatedFault) (number : Nat) (line : String) : LocatedFault :=
  located.moved (some number) (some line)

/-- A line in a message: quoted, so that it stays on one line. -/
def lineText : Option String → String
  | some line => Text.quoted line
  | none => "None"

/-- The fault in words, with the line in front if it has a number. -/
def message (located : LocatedFault) : String :=
  match located.number with
  | none => located.fault.message
  | some number =>
    "line " ++ toString number ++ ": " ++ located.fault.message ++
      " (" ++ lineText located.line ++ ")"

end LocatedFault
end FiniteAutomata
