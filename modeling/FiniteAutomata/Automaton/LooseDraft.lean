import FiniteAutomata.Automaton.Draft
import FiniteAutomata.Automaton.Record

namespace FiniteAutomata

open Log (Reported)
open Conversion (Rejected)

/-!
# Drafts of loosely typed values

A recorded script may give a draft a list of one item where a symbol should
be, or a word where a flag should be.  The draft takes such values as they
are, and building it settles what they stand for: first the flags, which are
converted, then the symbols, which have to be texts.  With symbols that are
texts and flags that are flags this is a plain draft.
-/

/-- A draft together with the symbols and the flags as they were given. -/
structure LooseDraft where
  draft : Draft
  symbols : List Value
  flags : List Value

/-- Why a loose draft refuses.  A value is `unfit` if it has no items that
could be counted, or if moves cannot be told apart by it. -/
inductive LooseFailure where
  | fault (fault : Fault)
  | rejected (rejected : Rejected)
  | repeatedValue (value : Value)
  | unfit

namespace LooseDraft

def empty : LooseDraft :=
  ⟨Draft.empty, [], []⟩

/-! ## Values in messages -/

/-- Pieces with a comma and a blank between each two. -/
def listed (pieces : List String) : String :=
  ", ".intercalate pieces

mutual

/-- A value as messages show it. -/
def shown : Value → String
  | .null => "None"
  | .bool true => "True"
  | .bool false => "False"
  | .string text => Text.quoted text
  | .list items => "[" ++ listed (shownItems items) ++ "]"
  | .object members => "\x7b" ++ listed (shownMembers members) ++ "\x7d"
  | value => Json.write value

def shownItems : List Value → List String
  | [] => []
  | item :: rest => shown item :: shownItems rest

def shownMembers : List (String × Value) → List String
  | [] => []
  | (key, value) :: rest => (Text.quoted key ++ ": " ++ shown value) :: shownMembers rest

end

/-! ## Steps -/

/-- Two values that are written alike. -/
def alike (first second : Value) : Bool :=
  Json.chars first == Json.chars second

def hasSymbol (loose : LooseDraft) (value : Value) : Bool :=
  loose.symbols.any (alike value)

/-- How many items a value has that is no text, if it has items. -/
def count? : Value → Option Nat
  | .list items => some items.length
  | .object members => some (Entries.collapse members).length
  | _ => none

/-- The fault of a symbol that has too few or too many items. -/
def wideValue (value : Value) : Fault :=
  .stated ("symbol " ++ shown value ++ " must be a single character")

/-- Give the alphabet a new symbol: a text of one character, or a value of one
item. -/
def addSymbol (loose : LooseDraft) (value : Value) : Except LooseFailure LooseDraft :=
  match value with
  | .string text =>
    match loose.draft.addSymbol text with
    | .error fault => .error (.fault fault)
    | .ok draft => .ok { loose with draft := draft, symbols := loose.symbols ++ [value] }
  | _ =>
    match count? value with
    | none => .error .unfit
    | some 1 =>
      if loose.hasSymbol value then .error (.repeatedValue value)
      else .ok { loose with symbols := loose.symbols ++ [value] }
    | some _ => .error (.fault (wideValue value))

def addState (loose : LooseDraft) (name : String) (flag : Value) : Except Fault LooseDraft :=
  (loose.draft.addState name false).map fun draft =>
    { loose with draft := draft, flags := loose.flags ++ [flag] }

def setAccepting (loose : LooseDraft) (name : String) (flag : Value) : Except Fault LooseDraft :=
  (loose.draft.require name).map fun index => { loose with flags := loose.flags.set index flag }

/-- Flag the states of a list of names as accepting. -/
def markAccepting (loose : LooseDraft) : List String → LooseDraft
  | [] => loose
  | name :: rest =>
    match loose.draft.indexOf? name with
    | some index => markAccepting { loose with flags := loose.flags.set index (.bool true) } rest
    | none => markAccepting loose rest

def setStart (loose : LooseDraft) (name : String) : Except Fault LooseDraft :=
  (loose.draft.setStart name).map fun draft => { loose with draft := draft }

/-- The fault of a move between states that are not both there. -/
def missingEnd? (loose : LooseDraft) (source target : String) : Option Fault :=
  if !loose.draft.hasState source then some (.missingState source)
  else if !loose.draft.hasState target then some (.missingTarget target)
  else none

/-- Give a state a move and report it.  A value of one item that is no text is
found unfit only between states that are there. -/
def move (loose : LooseDraft) (source : String) (symbol : Value) (target : String) :
    Reported LooseFailure LooseDraft :=
  match symbol with
  | .string text =>
    ((loose.draft.move source text target).widen .fault).andThen fun draft =>
      .silent (.ok { loose with draft := draft })
  | _ =>
    match count? symbol with
    | none => .silent (.error .unfit)
    | some 1 =>
      match loose.missingEnd? source target with
      | some fault => .silent (.error (.fault fault))
      | none => .silent (.error .unfit)
    | some _ => .silent (.error (.fault (wideValue symbol)))

/-! ## The finished automaton -/

/-- The states with their flags converted, up to the first flag that is
rejected. -/
def flagged : List State → List Value → Except Rejected (List State)
  | state :: states, value :: values =>
    match Conversion.inside (.field "is_accept") (Conversion.alone (Conversion.flag value)) with
    | .error problems => .error ⟨CandidateState.recordName, problems⟩
    | .ok accepting => (flagged states values).map ({ state with accepting := accepting } :: ·)
  | states, _ => .ok states

/-- The first symbol that is no text. -/
def oddSymbol? (symbols : List Value) : Option Value :=
  symbols.find? fun value =>
    match value with
    | .string _ => false
    | _ => true

/-- Build the automaton that the draft describes and report it. -/
def finish (loose : LooseDraft) : Reported LooseFailure Automaton :=
  match flagged loose.draft.states loose.flags with
  | .error rejected => .silent (.error (.rejected rejected))
  | .ok states =>
    match oddSymbol? loose.symbols with
    | some value => .silent (.error (.fault (.broken (.wideSymbol (Json.write value)))))
    | none => ({ loose.draft with states := states }).finish.widen .fault

end LooseDraft
end FiniteAutomata
