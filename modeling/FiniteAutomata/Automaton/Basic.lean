namespace FiniteAutomata

/-!
# Automata

A deterministic finite automaton holds its states in one list, the arena, and
a state's moves lead to positions of that list, so that cycles need no shared
ownership.  The start state is a position too; an automaton without one
accepts nothing.

`Sound` collects what makes an arena an automaton: names that are there and
distinct, a start and targets inside the arena, and at most one move for each
state and symbol.  It is a field of `Automaton`, so every position that an
automaton holds is one of its states.
-/

/-- One state of the arena: its name, whether words may end in it, and its
moves, each a symbol with the position of the target. -/
structure State where
  name : String
  accepting : Bool
  moves : List (Char × Nat)
deriving DecidableEq, Repr

namespace State

def target? (state : State) (symbol : Char) : Option Nat :=
  state.moves.lookup symbol

end State

/-- The arena holds together. -/
structure Sound (states : List State) (alphabet : List Char) (start : Option Nat) : Prop where
  names_nonempty : ∀ state ∈ states, state.name ≠ ""
  names_distinct : (states.map State.name).Nodup
  alphabet_distinct : alphabet.Nodup
  start_bound : ∀ index, start = some index → index < states.length
  symbols_distinct : ∀ state ∈ states, (state.moves.map Prod.fst).Nodup
  targets_bound : ∀ state ∈ states, ∀ move ∈ state.moves, move.2 < states.length

structure Automaton where
  states : List State
  alphabet : List Char
  start : Option Nat
  sound : Sound states alphabet start

namespace Automaton

@[ext]
theorem ext {first second : Automaton} (states : first.states = second.states)
    (alphabet : first.alphabet = second.alphabet) (start : first.start = second.start) :
    first = second := by
  cases first
  cases second
  simp_all

instance : DecidableEq Automaton := fun first second =>
  decidable_of_iff
    (first.states = second.states ∧ first.alphabet = second.alphabet ∧ first.start = second.start)
    ⟨fun ⟨states, alphabet, start⟩ => ext states alphabet start, fun same => by simp [same]⟩

/-! ## Looking at states -/

/-- The names of the states in the order of the arena. -/
def stateNames (automaton : Automaton) : List String :=
  automaton.states.map State.name

def startState? (automaton : Automaton) : Option State :=
  automaton.start.bind fun index => automaton.states[index]?

def acceptingStates (automaton : Automaton) : List State :=
  automaton.states.filter State.accepting

/-- An automaton without a start state accepts nothing. -/
def isEmpty (automaton : Automaton) : Bool :=
  automaton.start.isNone

def indexOf? (automaton : Automaton) (name : String) : Option Nat :=
  automaton.states.findIdx? fun state => state.name == name

def state? (automaton : Automaton) (name : String) : Option State :=
  (automaton.indexOf? name).bind fun index => automaton.states[index]?

/-- The name of the state at a position; the empty text, which is no name,
outside of the arena. -/
def nameAt (automaton : Automaton) (index : Nat) : String :=
  match automaton.states[index]? with
  | some state => state.name
  | none => ""

def acceptsAt (automaton : Automaton) (index : Nat) : Bool :=
  match automaton.states[index]? with
  | some state => state.accepting
  | none => false

/-! ## Moves -/

def step (automaton : Automaton) (index : Nat) (symbol : Char) : Option Nat :=
  match automaton.states[index]? with
  | some state => state.target? symbol
  | none => none

/-- Why there is no state at a counted position: the arena ends before it, or
it is no position of any list. -/
inductive PositionFault where
  | outside
  | boundless
deriving DecidableEq, Repr

def PositionFault.message : PositionFault → String
  | .outside => "list index out of range"
  | .boundless => "cannot fit 'int' into an index-sized integer"

/-- Positions of lists are below this bound, counted from either end. -/
def positionBound : Nat := Nat.pow 2 63

/-- A position counted from the front, or from the back if it is negative. -/
def position (automaton : Automaton) (index : Int) : Except PositionFault Nat :=
  let size : Int := automaton.states.length
  let counted := if index < 0 then index + size else index
  if index < -(positionBound : Int) ∨ (positionBound : Int) ≤ index then .error .boundless
  else if 0 ≤ counted ∧ counted < size then .ok counted.toNat
  else .error .outside

/-- The position that a text leads to from a position counted from either
end.  A text that is not one symbol leads nowhere. -/
def stepFrom (automaton : Automaton) (index : Int) (text : String) :
    Except PositionFault (Option Nat) :=
  (automaton.position index).map fun position =>
    match text.toList with
    | [symbol] => automaton.step position symbol
    | _ => none

/-- All moves by name: source, symbol, target; by states in the order of the
arena, and by moves in the order in which the state holds them. -/
def transitions (automaton : Automaton) : List (String × Char × String) :=
  automaton.states.flatMap fun state =>
    state.moves.map fun move => (state.name, move.1, automaton.nameAt move.2)

/-- The pairs of a state and a symbol of the alphabet without a move. -/
def missingTransitions (automaton : Automaton) : List (String × Char) :=
  automaton.states.flatMap fun state =>
    (automaton.alphabet.filter fun symbol => (state.target? symbol).isNone).map fun symbol =>
      (state.name, symbol)

def isComplete (automaton : Automaton) : Bool :=
  automaton.missingTransitions.isEmpty

/-! ## Equality up to the order of moves -/

/-- Two states with one name and one flag, whose moves are the same map. -/
def sameState (first second : State) : Bool :=
  first.name == second.name && first.accepting == second.accepting &&
    first.moves.length == second.moves.length &&
    first.moves.all fun move => second.target? move.1 == some move.2

/-- Two arenas with the same states in the same order. -/
def sameStates : List State → List State → Bool
  | [], [] => true
  | first :: rest, second :: others => sameState first second && sameStates rest others
  | _, _ => false

/-- Two automata that differ at most in the order in which states hold their
moves. -/
def same (first second : Automaton) : Bool :=
  sameStates first.states second.states && first.alphabet == second.alphabet &&
    first.start == second.start

end Automaton
end FiniteAutomata
