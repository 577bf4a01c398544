import FiniteAutomata.Automaton.Draft
import FiniteAutomata.Text.Number

namespace FiniteAutomata
namespace Interview

/-!
# Questions

An interview asks for an automaton field by field: how many symbols and which,
how many states, their names and flags, a target for each state and symbol,
and the start state.  A question and the draft so far determine the prompt,
and an answer either moves the interview on or is turned down with a remark,
after which the same question is asked again.
-/

/-- What is asked next.  A question holds what is still to be asked in its
part of the interview. -/
inductive Question where
  | symbolCount
  | symbol (size : Nat)
  | stateCount
  | stateName (size : Nat)
  | acceptance (size : Nat) (name : String)
  | target (source : String) (symbol : Char) (later : List (String × Char))
  | startName
deriving DecidableEq, Repr

def Question.prompt (draft : Draft) : Question → String
  | .symbolCount => "Enter the cardinality of the alphabet: "
  | .symbol _ => "Enter symbol " ++ toString (draft.alphabet.length + 1) ++ ": "
  | .stateCount => "Enter the cardinality of the set of states: "
  | .stateName _ => "Enter the name of state " ++ toString draft.states.length ++ ": "
  | .acceptance _ _ => "Is it an accepting state? (y/n): "
  | .target source letter _ =>
    "Enter the state \"" ++ source ++ "\" moves to on symbol " ++ String.singleton letter ++ ": "
  | .startName => "Enter the start state: "

/-- Where an interview stands: a question to be answered, or the end with
what is reported there. -/
inductive Stage where
  | ask (question : Question)
  | done (events : List Log.Event)
deriving DecidableEq, Repr

/-- The stage after the last target. -/
def Stage.afterTargets (draft : Draft) : Stage :=
  if draft.states.isEmpty then .done [.interviewWithoutStates] else .ask .startName

/-- The stage that asks for targets. -/
def Stage.targets (draft : Draft) : List (String × Char) → Stage
  | [] => .afterTargets draft
  | (source, symbol) :: later => .ask (.target source symbol later)

def edgeQuestions (draft : Draft) : List (String × Char) :=
  draft.stateNames.flatMap fun name => draft.alphabet.map fun symbol => (name, symbol)

/-- The stage that asks for states until there are enough. -/
def Stage.states (draft : Draft) (size : Nat) : Stage :=
  if draft.states.length < size then .ask (.stateName size)
  else .targets draft (edgeQuestions draft)

/-- The stage that asks for symbols until there are enough. -/
def Stage.symbols (draft : Draft) (size : Nat) : Stage :=
  if draft.alphabet.length < size then .ask (.symbol size) else .ask .stateCount

/-! ## Answers -/

/-- What becomes of an answer. -/
inductive Reaction where
  | accepted (events : List Log.Event) (draft : Draft) (stage : Stage)
  | turnedDown (remark : String)
  | failed (fault : Fault)
deriving DecidableEq, Repr

def count? (answer : String) : Option Nat :=
  match Text.wholeNumber? answer.toList with
  | some value => if 0 ≤ value then some value.toNat else none
  | none => none

/-- The remark on an answer that is no size. -/
def countRemark : String := "Invalid input, please enter a whole number."

/-- An answer as yes or no.  Only basic letters have these as their small
forms, so the case of others does not matter. -/
def yesOrNo? (answer : String) : Option Bool :=
  let word := String.ofList (answer.toList.map Char.toLower)
  if word ∈ ["s", "y", "yes"] then some true
  else if word ∈ ["n", "no"] then some false
  else none

/-- Go on with a new draft. -/
def goOn (changed : Except Fault Draft) (stage : Draft → Stage) : Reaction :=
  match changed with
  | .ok draft => .accepted [] draft (stage draft)
  | .error fault => .failed fault

/-- What becomes of an answer without blanks at its ends. -/
def Question.react (draft : Draft) (answer : String) : Question → Reaction
  | .symbolCount =>
    match count? answer with
    | some size => .accepted [] draft (.symbols draft size)
    | none => .turnedDown countRemark
  | .symbol size =>
    match answer.toList with
    | [] => .turnedDown "Empty input, please enter a symbol."
    | letter :: _ =>
      if draft.hasSymbol (String.singleton letter) then
        .turnedDown "The symbol already exists in the alphabet."
      else
        goOn (draft.addSymbol (String.singleton letter)) fun next => .symbols next size
  | .stateCount =>
    match count? answer with
    | some size => .accepted [] draft (.states draft size)
    | none => .turnedDown countRemark
  | .stateName size =>
    if answer.isEmpty then .turnedDown "Empty input, please enter a state name."
    else if draft.hasState answer then
      .turnedDown ("The state \"" ++ answer ++ "\" has already been defined.")
    else
      match checkName answer with
      | .error fault => .turnedDown ("Invalid state name: " ++ fault.message)
      | .ok () => .accepted [] draft (.ask (.acceptance size answer))
  | .acceptance size name =>
    match yesOrNo? answer with
    | some accepting => goOn (draft.addState name accepting) fun next => .states next size
    | none => .turnedDown "Invalid option."
  | .target source letter later =>
    if draft.hasState answer then
      match draft.move source (String.singleton letter) answer with
      | ⟨events, .ok next⟩ => .accepted events next (.targets next later)
      | ⟨_, .error fault⟩ => .failed fault
    else
      .turnedDown "The state does not exist."
  | .startName =>
    if draft.hasState answer then goOn (draft.setStart answer) fun _ => .done []
    else .turnedDown "The state does not exist."

end Interview
end FiniteAutomata
