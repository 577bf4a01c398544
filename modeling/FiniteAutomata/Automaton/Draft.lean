import FiniteAutomata.Automaton.Fault
import FiniteAutomata.Log.Reported
import FiniteAutomata.Text.Blank
import FiniteAutomata.Text.Split

namespace FiniteAutomata

/-!
# Drafts

A draft is an automaton under construction.  Symbols, states, flags, moves
and the start are given to it one at a time and by name; a step that is
refused gives no new draft, so the old one stands.  `Draft.build` checks the
draft once as a candidate and gives the automaton.

The names a draft takes are those that a specification can be written with:
not empty, without blanks at their ends, and without the marks of the format.
-/

/-- The marks of the specification format, which no state name may hold, in
the order in which they are looked for. -/
def reservedTokens : List String :=
  [",", "\x7b", "\x7d", "(", ")", "->"]

/-- Whether a name can be a state's, and if not, the first reason. -/
def checkName (name : String) : Except Fault Unit :=
  if name.isEmpty then .error .emptyName
  else if !Text.isTrimmed name then .error (.paddedName name)
  else
    match reservedTokens.find? fun token => Text.contains token.toList name.toList with
    | some token => .error (.reservedInName name token)
    | none => .ok ()

/-- An automaton under construction. -/
structure Draft where
  alphabet : List Char
  states : List State
  start : Option Nat
deriving DecidableEq, Repr

namespace Draft

def empty : Draft :=
  ⟨[], [], none⟩

/-- The names of the states in the order in which they were given. -/
def stateNames (draft : Draft) : List String :=
  draft.states.map State.name

def indexOf? (draft : Draft) (name : String) : Option Nat :=
  draft.states.findIdx? fun state => state.name == name

def hasState (draft : Draft) (name : String) : Bool :=
  (draft.indexOf? name).isSome

def hasSymbol (draft : Draft) (text : String) : Bool :=
  draft.alphabet.any fun symbol => String.singleton symbol == text

def updateState (draft : Draft) (index : Nat) (change : State → State) : Draft :=
  { draft with states := draft.states.modify index change }

/-! ## Steps -/

def addSymbol (draft : Draft) (text : String) : Except Fault Draft :=
  match text.toList with
  | [symbol] =>
    if symbol ∈ draft.alphabet then .error (.repeatedSymbol text)
    else .ok { draft with alphabet := draft.alphabet ++ [symbol] }
  | _ => .error (.wideSymbol text)

def addState (draft : Draft) (name : String) (accepting : Bool) : Except Fault Draft :=
  match checkName name with
  | .error fault => .error fault
  | .ok () =>
    if draft.hasState name then .error (.repeatedState name)
    else .ok { draft with states := draft.states ++ [⟨name, accepting, []⟩] }

/-- The position of a state that must be there. -/
def require (draft : Draft) (name : String) : Except Fault Nat :=
  match draft.indexOf? name with
  | some index => .ok index
  | none => .error (.missingState name)

def setAccepting (draft : Draft) (name : String) (accepting : Bool) : Except Fault Draft :=
  match draft.require name with
  | .error fault => .error fault
  | .ok index => .ok (draft.updateState index fun state => { state with accepting := accepting })

/-- Flag the states of a list of names as accepting.  Names of no state are
left out. -/
def markAccepting (draft : Draft) : List String → Draft
  | [] => draft
  | name :: rest =>
    match draft.indexOf? name with
    | some index =>
      markAccepting (draft.updateState index fun state => { state with accepting := true }) rest
    | none => markAccepting draft rest

/-- The names of a list that are names of no state. -/
def unknownNames (draft : Draft) (names : List String) : List String :=
  names.filter fun name => !draft.hasState name

def setStart (draft : Draft) (name : String) : Except Fault Draft :=
  match draft.require name with
  | .error fault => .error fault
  | .ok index => .ok { draft with start := some index }

/-- The name of the state at a position; the empty text, which is no name,
outside of the arena. -/
def nameAt (draft : Draft) (index : Nat) : String :=
  match draft.states[index]? with
  | some state => state.name
  | none => ""

/-- The position that a symbol leads to from a position. -/
def target? (draft : Draft) (index : Nat) (symbol : Char) : Option Nat :=
  match draft.states[index]? with
  | some state => state.target? symbol
  | none => none

/-- Give a state a move.  Giving it again changes nothing; giving it with
another target is refused. -/
def addMove (draft : Draft) (source text target : String) : Except Fault Draft :=
  match text.toList with
  | [symbol] =>
    match draft.require source with
    | .error fault => .error fault
    | .ok index =>
      match draft.indexOf? target with
      | none => .error (.missingTarget target)
      | some goal =>
        match draft.target? index symbol with
        | some existing =>
          if existing = goal then .ok draft
          else .error (.conflictingMove source text (draft.nameAt existing) target)
        | none =>
          .ok (draft.updateState index fun state =>
            { state with moves := state.moves ++ [(symbol, goal)] })
  | _ => .error (.wideSymbol text)

/-- What is reported about a move when it has been given. -/
def moveEvents (source text target : String) : List Log.Event :=
  match text.toList with
  | [symbol] => [.moveAdded source symbol target]
  | _ => []

/-- Give a state a move and report it. -/
def move (draft : Draft) (source text target : String) : Log.Reported Fault Draft :=
  match draft.addMove source text target with
  | .ok next => ⟨moveEvents source text target, .ok next⟩
  | .error fault => .silent (.error fault)

/-! ## The finished automaton -/

def toCandidate (draft : Draft) : Candidate :=
  ⟨draft.states.map State.toCandidate, draft.alphabet.map String.singleton,
    draft.start.map fun index => (index : Int)⟩

def build (draft : Draft) : Except Fault Automaton :=
  match draft.toCandidate.check with
  | .ok automaton => .ok automaton
  | .error fault => .error (.broken fault)

end Draft

/-- What is reported about an automaton when it has been built. -/
def Automaton.builtEvent (automaton : Automaton) : Log.Event :=
  .automatonBuilt automaton.states.length automaton.alphabet.length
    (automaton.startState?.map State.name)

/-- Build the automaton that the draft describes and report it. -/
def Draft.finish (draft : Draft) : Log.Reported Fault Automaton :=
  match draft.build with
  | .ok automaton => ⟨[automaton.builtEvent], .ok automaton⟩
  | .error fault => .silent (.error fault)

end FiniteAutomata
