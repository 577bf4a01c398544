import FiniteAutomata.Automaton.Basic
import FiniteAutomata.Entries

namespace FiniteAutomata

/-!
# Candidates and their check

A candidate has the shape of an automaton before anything is known about it:
symbols are texts of any length, positions are whole numbers of any sign, and
names may be missing or recur.  `Candidate.check` gives the automaton it
describes or the first fault in a fixed order: names, alphabet, start, then
the moves of each state.

Checking an automaton that was written back as a candidate gives the same
automaton again, so the candidates that pass are exactly the automata.
-/

structure CandidateState where
  name : String
  accepting : Bool
  moves : List (String × Int)
deriving DecidableEq, Repr

/-- The parts of an automaton, not yet checked. -/
structure Candidate where
  states : List CandidateState
  alphabet : List String
  start : Option Int
deriving DecidableEq, Repr

/-- What keeps a candidate from being an automaton. -/
inductive IntegrityFault where
  | emptyName
  | repeatedName
  | repeatedSymbol
  | wideSymbol (symbol : String)
  | startOutside (start : Int)
  | wideMove (state symbol : String)
  | targetOutside (state : String) (target : Int)
deriving DecidableEq, Repr

def IntegrityFault.message : IntegrityFault → String
  | .emptyName => "State names must not be empty."
  | .repeatedName => "State names must be unique."
  | .repeatedSymbol => "Alphabet symbols must be unique."
  | .wideSymbol symbol => "Alphabet symbol '" ++ symbol ++ "' is not a single character."
  | .startOutside start => "Start index " ++ toString start ++ " is not a state."
  | .wideMove state symbol =>
    "State '" ++ state ++ "' has multi-character symbol '" ++ symbol ++ "'."
  | .targetOutside state target =>
    "State '" ++ state ++ "' transitions to unknown index " ++ toString target ++ "."

namespace Candidate

/-- The moves of a state in an arena of a given size. -/
def checkMoves (size : Nat) (state : String) :
    List (String × Int) → Except IntegrityFault (List (Char × Nat))
  | [] => .ok []
  | (text, target) :: rest =>
    match text.toList with
    | [symbol] =>
      if 0 ≤ target ∧ target < (size : Int) then
        match checkMoves size state rest with
        | .ok moves => .ok ((symbol, target.toNat) :: moves)
        | .error fault => .error fault
      else
        .error (.targetOutside state target)
    | _ => .error (.wideMove state text)

/-- The states of an arena of a given size. -/
def checkStates (size : Nat) : List CandidateState → Except IntegrityFault (List State)
  | [] => .ok []
  | state :: rest =>
    match checkMoves size state.name (Entries.collapse state.moves) with
    | .error fault => .error fault
    | .ok moves =>
      match checkStates size rest with
      | .ok states => .ok (⟨state.name, state.accepting, moves⟩ :: states)
      | .error fault => .error fault

/-- The symbols of an alphabet. -/
def checkAlphabet : List String → Except IntegrityFault (List Char)
  | [] => .ok []
  | text :: rest =>
    match text.toList with
    | [symbol] =>
      match checkAlphabet rest with
      | .ok symbols => .ok (symbol :: symbols)
      | .error fault => .error fault
    | _ => .error (.wideSymbol text)

/-- The start position of an arena of a given size. -/
def checkStart (size : Nat) : Option Int → Except IntegrityFault (Option Nat)
  | none => .ok none
  | some start =>
    if 0 ≤ start ∧ start < (size : Int) then .ok (some start.toNat)
    else .error (.startOutside start)

/-! ## What the parts of the check guarantee -/

theorem mem_checkMoves {size : Nat} {state : String} {entries : List (String × Int)}
    {moves : List (Char × Nat)} (checked : checkMoves size state entries = .ok moves) :
    (∀ move ∈ moves, move.2 < size) ∧
      moves.map (fun move => String.singleton move.1) = Entries.keys entries := by
  induction entries generalizing moves with
  | nil =>
    cases checked
    simp [Entries.keys]
  | cons entry rest inductionHypothesis =>
    obtain ⟨text, target⟩ := entry
    unfold checkMoves at checked
    split at checked
    · rename_i symbol single
      split at checked
      · rename_i inside
        split at checked
        · rename_i tail tailChecked
          cases checked
          obtain ⟨bounds, symbols⟩ := inductionHypothesis tailChecked
          have first : String.singleton symbol = text := by
            rw [← String.toList_inj, single]
            simp
          constructor
          · intro move member
            rcases List.mem_cons.mp member with same | later
            · subst same
              simp only
              omega
            · exact bounds move later
          · simpa [Entries.keys, first] using symbols
        · cases checked
      · cases checked
    · cases checked

/-- Distinct texts of one character have distinct characters. -/
theorem nodup_of_nodup_singleton {symbols : List Char}
    (distinct : (symbols.map String.singleton).Nodup) : symbols.Nodup :=
  List.Pairwise.of_map String.singleton
    (fun _ _ apart same => apart (congrArg String.singleton same)) distinct

/-- Distinct characters are distinct as texts. -/
theorem nodup_singleton_of_nodup {symbols : List Char} (distinct : symbols.Nodup) :
    (symbols.map String.singleton).Nodup :=
  List.Pairwise.map String.singleton
    (fun _ _ apart same => apart (by simpa using congrArg String.toList same)) distinct

theorem nodup_checkMoves {size : Nat} {state : String} {entries : List (String × Int)}
    {moves : List (Char × Nat)}
    (checked : checkMoves size state (Entries.collapse entries) = .ok moves) :
    (moves.map Prod.fst).Nodup := by
  apply nodup_of_nodup_singleton
  have symbols : (moves.map Prod.fst).map String.singleton =
      Entries.keys (Entries.collapse entries) :=
    List.map_map.trans (mem_checkMoves checked).2
  rw [symbols]
  exact Entries.nodup_keys_collapse entries

theorem mem_checkStates {size : Nat} {candidates : List CandidateState} {states : List State}
    (checked : checkStates size candidates = .ok states) :
    states.map State.name = candidates.map CandidateState.name ∧
      (∀ state ∈ states, (state.moves.map Prod.fst).Nodup) ∧
      ∀ state ∈ states, ∀ move ∈ state.moves, move.2 < size := by
  induction candidates generalizing states with
  | nil =>
    cases checked
    simp
  | cons candidate rest inductionHypothesis =>
    unfold checkStates at checked
    split at checked
    · cases checked
    · rename_i moves movesChecked
      split at checked
      · rename_i tail tailChecked
        cases checked
        obtain ⟨names, distinct, bounds⟩ := inductionHypothesis tailChecked
        refine ⟨by simp [names], ?_, ?_⟩
        · intro state member
          rcases List.mem_cons.mp member with same | later
          · subst same
            exact nodup_checkMoves movesChecked
          · exact distinct state later
        · intro state member
          rcases List.mem_cons.mp member with same | later
          · subst same
            exact (mem_checkMoves movesChecked).1
          · exact bounds state later
      · cases checked

theorem singleton_checkAlphabet {texts : List String} {symbols : List Char}
    (checked : checkAlphabet texts = .ok symbols) : symbols.map String.singleton = texts := by
  induction texts generalizing symbols with
  | nil =>
    cases checked
    simp
  | cons text rest inductionHypothesis =>
    unfold checkAlphabet at checked
    split at checked
    · rename_i symbol single
      split at checked
      · rename_i tail tailChecked
        cases checked
        have first : String.singleton symbol = text := by
          rw [← String.toList_inj, single]
          simp
        simp [inductionHypothesis tailChecked, first]
      · cases checked
    · cases checked

theorem lt_of_checkStart {size : Nat} {given : Option Int} {start : Option Nat}
    (checked : checkStart size given = .ok start) (index : Nat) (held : start = some index) :
    index < size := by
  unfold checkStart at checked
  split at checked
  · cases checked
    cases held
  · split at checked
    · cases checked
      cases held
      omega
    · cases checked

/-! ## The check -/

/-- The automaton that a candidate describes, or its first fault. -/
def check (candidate : Candidate) : Except IntegrityFault Automaton :=
  let names := candidate.states.map CandidateState.name
  if nonempty : ∀ name ∈ names, name ≠ "" then
    if distinctNames : names.Nodup then
      if distinctSymbols : candidate.alphabet.Nodup then
        match alphabetChecked : checkAlphabet candidate.alphabet with
        | .error fault => .error fault
        | .ok alphabet =>
          match startChecked : checkStart candidate.states.length candidate.start with
          | .error fault => .error fault
          | .ok start =>
            match statesChecked : checkStates candidate.states.length candidate.states with
            | .error fault => .error fault
            | .ok states =>
              have parts := mem_checkStates statesChecked
              have size : states.length = candidate.states.length := by
                simpa using congrArg List.length parts.1
              .ok ⟨states, alphabet, start,
                { names_nonempty := fun state member =>
                    nonempty state.name (by
                      rw [show names = states.map State.name from parts.1.symm]
                      exact List.mem_map_of_mem member)
                  names_distinct := parts.1 ▸ distinctNames
                  alphabet_distinct := nodup_of_nodup_singleton
                    ((singleton_checkAlphabet alphabetChecked).symm ▸ distinctSymbols)
                  start_bound := fun index held => size ▸ lt_of_checkStart startChecked index held
                  symbols_distinct := parts.2.1
                  targets_bound := fun state member move inside =>
                    size ▸ parts.2.2 state member move inside }⟩
      else
        .error .repeatedSymbol
    else
      .error .repeatedName
  else
    .error .emptyName

end Candidate

/-! ## Automata pass the check -/

/-- A state written back as a candidate. -/
def State.toCandidate (state : State) : CandidateState :=
  ⟨state.name, state.accepting,
    state.moves.map fun move => (String.singleton move.1, (move.2 : Int))⟩

/-- An automaton written back as a candidate. -/
def Automaton.toCandidate (automaton : Automaton) : Candidate :=
  ⟨automaton.states.map State.toCandidate, automaton.alphabet.map String.singleton,
    automaton.start.map fun index => (index : Int)⟩

namespace Candidate

theorem checkAlphabet_singleton (symbols : List Char) :
    checkAlphabet (symbols.map String.singleton) = .ok symbols := by
  induction symbols with
  | nil => rfl
  | cons symbol rest inductionHypothesis => simp [checkAlphabet, inductionHypothesis]

theorem checkStart_of_bound {size : Nat} {start : Option Nat}
    (bound : ∀ index, start = some index → index < size) :
    checkStart size (start.map fun index => (index : Int)) = .ok start := by
  cases start with
  | none => rfl
  | some index => simp [checkStart, bound index rfl]

theorem checkMoves_of_bound {size : Nat} {moves : List (Char × Nat)}
    (bound : ∀ move ∈ moves, move.2 < size) (name : String) :
    checkMoves size name (moves.map fun move => (String.singleton move.1, (move.2 : Int))) =
      .ok moves := by
  induction moves with
  | nil => rfl
  | cons move rest inductionHypothesis =>
    have first := bound move List.mem_cons_self
    have later := inductionHypothesis fun other member =>
      bound other (List.mem_cons_of_mem _ member)
    simp [checkMoves, first, later]

/-- The moves of a state have distinct symbols, so nothing is collapsed when
they are checked. -/
theorem collapse_moves {state : State} (distinct : (state.moves.map Prod.fst).Nodup) :
    Entries.collapse state.toCandidate.moves = state.toCandidate.moves := by
  apply Entries.collapse_of_nodup
  have symbols : Entries.keys state.toCandidate.moves =
      (state.moves.map Prod.fst).map String.singleton := by
    simp [Entries.keys, State.toCandidate]
  rw [symbols]
  exact nodup_singleton_of_nodup distinct

theorem checkStates_toCandidate {size : Nat} {states : List State}
    (distinct : ∀ state ∈ states, (state.moves.map Prod.fst).Nodup)
    (bound : ∀ state ∈ states, ∀ move ∈ state.moves, move.2 < size) :
    checkStates size (states.map State.toCandidate) = .ok states := by
  induction states with
  | nil => rfl
  | cons state rest inductionHypothesis =>
    have later := inductionHypothesis
      (fun other member => distinct other (List.mem_cons_of_mem _ member))
      (fun other member => bound other (List.mem_cons_of_mem _ member))
    have moves := checkMoves_of_bound (bound state List.mem_cons_self) state.name
    simp only [List.map_cons, checkStates, collapse_moves (distinct state List.mem_cons_self)]
    simp [State.toCandidate, moves, later]

end Candidate

/-- Checking an automaton that was written back gives the automaton again. -/
theorem Automaton.check_toCandidate (automaton : Automaton) :
    automaton.toCandidate.check = .ok automaton := by
  have sound := automaton.sound
  have names : automaton.toCandidate.states.map CandidateState.name =
      automaton.states.map State.name := by
    simp [toCandidate, State.toCandidate]
  have size : automaton.toCandidate.states.length = automaton.states.length := by
    simp [toCandidate]
  have alphabet : Candidate.checkAlphabet automaton.toCandidate.alphabet = .ok automaton.alphabet :=
    Candidate.checkAlphabet_singleton automaton.alphabet
  have start : Candidate.checkStart automaton.toCandidate.states.length
      automaton.toCandidate.start = .ok automaton.start := by
    rw [size]
    exact Candidate.checkStart_of_bound sound.start_bound
  have states : Candidate.checkStates automaton.toCandidate.states.length
      automaton.toCandidate.states = .ok automaton.states := by
    rw [size]
    exact Candidate.checkStates_toCandidate sound.symbols_distinct sound.targets_bound
  have nonempty : ∀ name ∈ automaton.toCandidate.states.map CandidateState.name, name ≠ "" := by
    rw [names]
    intro name member
    obtain ⟨state, held, rfl⟩ := List.mem_map.mp member
    exact sound.names_nonempty state held
  have distinctNames : (automaton.toCandidate.states.map CandidateState.name).Nodup := by
    rw [names]
    exact sound.names_distinct
  have distinctSymbols : automaton.toCandidate.alphabet.Nodup :=
    Candidate.nodup_singleton_of_nodup sound.alphabet_distinct
  simp only [Candidate.check]
  rw [dif_pos nonempty, dif_pos distinctNames, dif_pos distinctSymbols]
  split
  · rename_i fault failed
    cases failed.symm.trans alphabet
  · rename_i foundAlphabet alphabetFound
    split
    · rename_i fault failed
      cases failed.symm.trans start
    · rename_i foundStart startFound
      split
      · rename_i fault failed
        cases failed.symm.trans states
      · rename_i foundStates statesFound
        apply congrArg
        exact Automaton.ext (Except.ok.inj (statesFound.symm.trans states))
          (Except.ok.inj (alphabetFound.symm.trans alphabet))
          (Except.ok.inj (startFound.symm.trans start))

end FiniteAutomata
