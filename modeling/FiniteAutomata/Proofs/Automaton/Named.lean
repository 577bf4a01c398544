import FiniteAutomata.Automaton.Basic
import FiniteAutomata.Entries
import Mathlib.Data.List.Forall2
import Mathlib.Data.List.GetD
import Mathlib.Data.List.Nodup
import Mathlib.Data.List.Perm.Subperm

namespace FiniteAutomata

/-!
# Automata by name

Positions only stand for states.  The names of an automaton are distinct and
its targets lie in the arena, so that its states, read with the names of the
targets in place of their positions, determine it.

Two automata that are the same up to the order of moves have states that
agree one by one, and the moves of each pair are permutations of each other.
-/

/-- A name that is there is found at its position. -/
theorem getD_idxOf {names : List String} {name : String} (known : name ∈ names) :
    names.getD (names.idxOf name) "" = name := by
  rw [List.getD_eq_getElem?_getD, List.getElem?_idxOf known]
  rfl

namespace State

/-- States at one position of lists with the same names have the same name. -/
theorem name_eq_of_map_eq {first second : List State}
    (names : first.map State.name = second.map State.name) {index : Nat}
    (inside : index < first.length) (otherInside : index < second.length) :
    first[index].name = second[index].name := by
  have entries : (first.map State.name)[index]? = (second.map State.name)[index]? := by rw [names]
  simpa [inside, otherInside] using entries

/-! ## The moves of a state are a map -/

theorem target?_eq_none_iff {state : State} {symbol : Char} :
    state.target? symbol = none ↔ symbol ∉ state.moves.map Prod.fst := by
  rw [target?, List.lookup_eq_none_iff, List.mem_map]
  constructor
  · rintro absent ⟨move, member, rfl⟩
    exact absurd (absent move member) (by simp)
  · intro absent move member
    simp only [bne_iff_ne, ne_eq]
    rintro rfl
    exact absent ⟨move, member, rfl⟩

theorem mem_moves_of_target? {state : State} {symbol : Char} {target : Nat}
    (leads : state.target? symbol = some target) : (symbol, target) ∈ state.moves := by
  rcases List.lookup_eq_some_iff.mp leads with ⟨before, after, whole, _⟩
  rw [whole]
  exact List.mem_append_right _ List.mem_cons_self

theorem target?_eq_some_iff {state : State} (distinct : (state.moves.map Prod.fst).Nodup)
    {symbol : Char} {target : Nat} :
    state.target? symbol = some target ↔ (symbol, target) ∈ state.moves :=
  Entries.lookup_eq_some_iff distinct

/-- The moves of a state with the names of their targets. -/
def named (names : List String) (state : State) : List (Char × String) :=
  state.moves.map fun move => (move.1, names.getD move.2 "")

theorem map_fst_named (names : List String) (state : State) :
    (state.named names).map Prod.fst = state.moves.map Prod.fst := by
  simp [named]

/-- More states do not change the names of targets that are there. -/
theorem named_append {state : State} {names : List String}
    (bound : ∀ move ∈ state.moves, move.2 < names.length) (more : List String) :
    state.named (names ++ more) = state.named names := by
  apply List.map_congr_left
  intro move member
  rw [List.getD_append _ _ _ _ (bound move member)]

/-- Distinct names tell positions apart, so the moves are read off the named
ones. -/
theorem map_idxOf_named {names : List String} (distinct : names.Nodup) {state : State}
    (bound : ∀ move ∈ state.moves, move.2 < names.length) :
    (state.named names).map (fun move => (move.1, names.idxOf move.2)) = state.moves := by
  rw [named, List.map_map]
  conv_rhs => rw [← List.map_id state.moves]
  apply List.map_congr_left
  intro move member
  have inside := bound move member
  simp only [Function.comp_apply, List.getD_eq_getElem _ _ inside, distinct.idxOf_getElem, id_eq]

theorem moves_eq_of_named {names : List String} (distinct : names.Nodup) {first second : State}
    (boundFirst : ∀ move ∈ first.moves, move.2 < names.length)
    (boundSecond : ∀ move ∈ second.moves, move.2 < names.length)
    (same : first.named names = second.named names) : first.moves = second.moves := by
  rw [← map_idxOf_named distinct boundFirst, same, map_idxOf_named distinct boundSecond]

theorem moves_perm_of_named {names : List String} (distinct : names.Nodup) {first second : State}
    (boundFirst : ∀ move ∈ first.moves, move.2 < names.length)
    (boundSecond : ∀ move ∈ second.moves, move.2 < names.length)
    (same : (first.named names).Perm (second.named names)) : first.moves.Perm second.moves := by
  rw [← map_idxOf_named distinct boundFirst, ← map_idxOf_named distinct boundSecond]
  exact same.map _

end State

namespace Automaton

/-! ## Names and positions -/

theorem nameAt_eq_getD (automaton : Automaton) (index : Nat) :
    automaton.nameAt index = automaton.stateNames.getD index "" := by
  rw [nameAt, stateNames, List.getD_eq_getElem?_getD, List.getElem?_map]
  cases automaton.states[index]? <;> rfl

theorem length_stateNames (automaton : Automaton) :
    automaton.stateNames.length = automaton.states.length :=
  List.length_map _

theorem name_mem_stateNames {automaton : Automaton} {state : State}
    (member : state ∈ automaton.states) : state.name ∈ automaton.stateNames :=
  List.mem_map_of_mem member

theorem mem_states_of_startState? {automaton : Automaton} {state : State}
    (starts : automaton.startState? = some state) : state ∈ automaton.states := by
  rcases Option.bind_eq_some_iff.mp starts with ⟨index, _, entry⟩
  exact List.mem_of_getElem? entry

/-- A state is determined by its name. -/
theorem eq_of_name_eq {automaton : Automaton} {first second : State}
    (firstMember : first ∈ automaton.states) (secondMember : second ∈ automaton.states)
    (same : first.name = second.name) : first = second :=
  List.inj_on_of_nodup_map automaton.sound.names_distinct firstMember secondMember same

theorem targets_bound_names {automaton : Automaton} {state : State}
    (member : state ∈ automaton.states) :
    ∀ move ∈ state.moves, move.2 < automaton.stateNames.length := by
  rw [length_stateNames]
  exact automaton.sound.targets_bound state member

/-! ## Transitions -/

theorem transitions_eq (automaton : Automaton) : automaton.transitions =
    automaton.states.flatMap fun state =>
      (state.named automaton.stateNames).map fun move => (state.name, move) := by
  unfold transitions
  congr 1
  funext state
  rw [State.named, List.map_map]
  apply List.map_congr_left
  intro move _
  rw [nameAt_eq_getD]
  rfl

theorem mem_transitions_iff {automaton : Automaton} {move : String × Char × String} :
    move ∈ automaton.transitions ↔
      ∃ state ∈ automaton.states, state.name = move.1 ∧
        move.2 ∈ state.named automaton.stateNames := by
  rw [transitions_eq, List.mem_flatMap]
  constructor
  · rintro ⟨state, member, found⟩
    rcases List.mem_map.mp found with ⟨named, inside, rfl⟩
    exact ⟨state, member, rfl, inside⟩
  · rintro ⟨state, member, source, inside⟩
    refine ⟨state, member, List.mem_map.mpr ⟨move.2, inside, ?_⟩⟩
    rw [source]

/-- The transitions from a state are its moves. -/
theorem mem_named_iff {automaton : Automaton} {state : State} (member : state ∈ automaton.states)
    {move : Char × String} : move ∈ state.named automaton.stateNames ↔
      (state.name, move) ∈ automaton.transitions := by
  rw [mem_transitions_iff]
  constructor
  · exact fun inside => ⟨state, member, rfl, inside⟩
  · rintro ⟨other, held, name, inside⟩
    exact eq_of_name_eq held member name ▸ inside

theorem nodup_named {automaton : Automaton} {state : State} (member : state ∈ automaton.states) :
    (state.named automaton.stateNames).Nodup := by
  apply List.Nodup.of_map Prod.fst
  rw [State.map_fst_named]
  exact automaton.sound.symbols_distinct state member

/-- Source and target of a transition are states. -/
theorem names_of_mem_transitions {automaton : Automaton} {move : String × Char × String}
    (member : move ∈ automaton.transitions) :
    move.1 ∈ automaton.stateNames ∧ move.2.2 ∈ automaton.stateNames := by
  rcases mem_transitions_iff.mp member with ⟨state, held, source, inside⟩
  rcases List.mem_map.mp inside with ⟨entry, entryMember, same⟩
  have bound := targets_bound_names held entry entryMember
  refine ⟨source ▸ name_mem_stateNames held, ?_⟩
  rw [← same]
  simp only [List.getD_eq_getElem _ _ bound, List.getElem_mem]

/-- What is filtered out of the parts of all states comes from one of them, if it
gives the state away. -/
theorem filter_flatMap_states {α : Type} {automaton : Automaton} {state : State}
    (member : state ∈ automaton.states) {part : State → List α} {fits : α → Bool}
    (own : ∀ other ∈ automaton.states, ∀ entry ∈ part other, fits entry = true →
      other.name = state.name) :
    (automaton.states.flatMap part).filter fits = (part state).filter fits := by
  have distinct := automaton.sound.names_distinct
  generalize automaton.states = states at member distinct own
  -- The other states have other names, so nothing of theirs passes the filter.
  have others : ∀ rest : List State, (∀ other ∈ rest, other ∈ states ∧ other.name ≠ state.name) →
      (rest.flatMap part).filter fits = [] := by
    intro rest apart
    rw [List.filter_eq_nil_iff]
    intro entry found passes
    rcases List.mem_flatMap.mp found with ⟨other, held, inside⟩
    exact (apart other held).2 (own other (apart other held).1 entry inside passes)
  rcases List.append_of_mem member with ⟨before, after, rfl⟩
  rw [List.map_append, List.map_cons, List.nodup_append] at distinct
  rcases distinct with ⟨_, distinctBehind, apart⟩
  have clearBefore := others before fun other held => ⟨List.mem_append_left _ held,
    apart other.name (List.mem_map_of_mem held) state.name List.mem_cons_self⟩
  have clearAfter := others after fun other held =>
    ⟨List.mem_append_right _ (List.mem_cons_of_mem _ held), fun same =>
      (List.nodup_cons.mp distinctBehind).1 (same ▸ List.mem_map_of_mem held)⟩
  rw [List.flatMap_append, List.flatMap_cons, List.filter_append, List.filter_append, clearBefore,
    clearAfter, List.nil_append, List.append_nil]

/-- The transitions of a state are its moves. -/
theorem filter_transitions {automaton : Automaton} {state : State}
    (member : state ∈ automaton.states) :
    automaton.transitions.filter (fun move => move.1 = state.name) =
      (state.named automaton.stateNames).map fun move => (state.name, move) := by
  rw [transitions_eq, filter_flatMap_states member]
  · rw [List.filter_eq_self]
    intro move found
    rcases List.mem_map.mp found with ⟨entry, _, rfl⟩
    simp
  · intro other _ move found passes
    rcases List.mem_map.mp found with ⟨entry, _, rfl⟩
    simpa using passes

/-- Source and symbol determine the target. -/
theorem target_eq_of_mem_transitions {automaton : Automaton} {first second : String × Char × String}
    (memberFirst : first ∈ automaton.transitions) (memberSecond : second ∈ automaton.transitions)
    (source : first.1 = second.1) (symbol : first.2.1 = second.2.1) : first.2.2 = second.2.2 := by
  rcases mem_transitions_iff.mp memberFirst with ⟨state, held, name, inside⟩
  rcases mem_transitions_iff.mp memberSecond with ⟨other, otherHeld, otherName, otherInside⟩
  rcases eq_of_name_eq held otherHeld (name.trans (source.trans otherName.symm)) with rfl
  have distinct := automaton.sound.symbols_distinct state held
  rw [← State.map_fst_named automaton.stateNames] at distinct
  exact congrArg Prod.snd (List.inj_on_of_nodup_map distinct inside otherInside symbol)

/-- In a complete automaton every state has a move for every symbol. -/
theorem isComplete_iff {automaton : Automaton} : automaton.isComplete = true ↔
    ∀ state ∈ automaton.states, ∀ symbol ∈ automaton.alphabet, symbol ∈ state.moves.map Prod.fst := by
  rw [isComplete, List.isEmpty_iff, missingTransitions, List.flatMap_eq_nil_iff]
  refine forall₂_congr fun state _ => ?_
  rw [List.map_eq_nil_iff, List.filter_eq_nil_iff]
  refine forall₂_congr fun symbol _ => ?_
  rw [Option.isNone_iff_eq_none, State.target?_eq_none_iff, not_not]

/-- The automaton with other symbols. -/
def withAlphabet (automaton : Automaton) {alphabet : List Char} (distinct : alphabet.Nodup) :
    Automaton :=
  { automaton with
    alphabet := alphabet
    sound := { automaton.sound with alphabet_distinct := distinct } }

/-- Automata that agree by name are equal. -/
theorem eq_of_named {first second : Automaton} (names : first.stateNames = second.stateNames)
    (alphabet : first.alphabet = second.alphabet) (start : first.start = second.start)
    (alike : ∀ state ∈ first.states, ∀ other ∈ second.states, state.name = other.name →
      state.accepting = other.accepting ∧
        state.named first.stateNames = other.named second.stateNames) : first = second := by
  refine Automaton.ext (List.ext_getElem ?_ ?_) alphabet start
  · simpa only [length_stateNames] using congrArg List.length names
  · intro index firstBound secondBound
    have firstMember := List.getElem_mem firstBound
    have secondMember := List.getElem_mem secondBound
    have sameName := State.name_eq_of_map_eq names firstBound secondBound
    rcases alike _ firstMember _ secondMember sameName with ⟨flags, moves⟩
    rw [← names] at moves
    have boundSecond : ∀ move ∈ (second.states[index]).moves, move.2 < first.stateNames.length := by
      rw [names]
      exact targets_bound_names secondMember
    have sameMoves := State.moves_eq_of_named first.sound.names_distinct
      (targets_bound_names firstMember) boundSecond moves
    generalize first.states[index] = state at *
    generalize second.states[index] = other at *
    cases state
    cases other
    simp_all

/-! ## Equality up to the order of moves -/

/-- Two states that differ at most in the order of their moves. -/
structure Alike (first second : State) : Prop where
  name : first.name = second.name
  accepting : first.accepting = second.accepting
  moves : first.moves.Perm second.moves

theorem sameState_iff {first second : State} (distinctFirst : (first.moves.map Prod.fst).Nodup)
    (distinctSecond : (second.moves.map Prod.fst).Nodup) :
    sameState first second = true ↔ Alike first second := by
  simp only [sameState, Bool.and_eq_true, beq_iff_eq, List.all_eq_true]
  constructor
  · rintro ⟨⟨⟨name, accepting⟩, size⟩, inside⟩
    have subset : first.moves ⊆ second.moves := fun move member =>
      (State.target?_eq_some_iff distinctSecond).mp (inside move member)
    have subperm := List.subperm_of_subset (List.Nodup.of_map _ distinctFirst) subset
    exact ⟨name, accepting, subperm.perm_of_length_le (Nat.le_of_eq size.symm)⟩
  · rintro ⟨name, accepting, moves⟩
    exact ⟨⟨⟨name, accepting⟩, moves.length_eq⟩, fun move member =>
      (State.target?_eq_some_iff distinctSecond).mpr (moves.subset member)⟩

theorem sameStates_iff {first second : List State}
    (distinctFirst : ∀ state ∈ first, (state.moves.map Prod.fst).Nodup)
    (distinctSecond : ∀ state ∈ second, (state.moves.map Prod.fst).Nodup) :
    sameStates first second = true ↔ List.Forall₂ Alike first second := by
  induction first generalizing second with
  | nil => cases second <;> simp [sameStates]
  | cons state rest inductionHypothesis =>
    cases second with
    | nil => simp [sameStates]
    | cons other others =>
      rw [sameStates, Bool.and_eq_true, List.forall₂_cons,
        sameState_iff (distinctFirst state List.mem_cons_self)
          (distinctSecond other List.mem_cons_self),
        inductionHypothesis (fun held member => distinctFirst held (List.mem_cons_of_mem _ member))
          (fun held member => distinctSecond held (List.mem_cons_of_mem _ member))]

/-- Automata are the same if they agree in everything but the order of the
moves of each state. -/
theorem same_iff {first second : Automaton} : first.same second = true ↔
    List.Forall₂ Alike first.states second.states ∧ first.alphabet = second.alphabet ∧
      first.start = second.start := by
  rw [same, Bool.and_eq_true, Bool.and_eq_true, beq_iff_eq, beq_iff_eq, and_assoc,
    sameStates_iff first.sound.symbols_distinct second.sound.symbols_distinct]

/-- Automata that agree by name, up to the order of moves, are the same. -/
theorem same_of_named {first second : Automaton} (names : first.stateNames = second.stateNames)
    (alphabet : first.alphabet = second.alphabet) (start : first.start = second.start)
    (alike : ∀ state ∈ first.states, ∀ other ∈ second.states, state.name = other.name →
      state.accepting = other.accepting ∧
        (state.named first.stateNames).Perm (other.named second.stateNames)) :
    first.same second = true := by
  refine same_iff.mpr ⟨List.forall₂_iff_get.mpr ⟨?_, ?_⟩, alphabet, start⟩
  · simpa only [length_stateNames] using congrArg List.length names
  · intro index firstBound secondBound
    have firstMember := List.get_mem first.states ⟨index, firstBound⟩
    have secondMember := List.get_mem second.states ⟨index, secondBound⟩
    have sameName := State.name_eq_of_map_eq names firstBound secondBound
    rcases alike _ firstMember _ secondMember sameName with ⟨flags, moves⟩
    have boundSecond := targets_bound_names secondMember
    rw [← names] at moves boundSecond
    exact ⟨sameName, flags, State.moves_perm_of_named first.sound.names_distinct
      (targets_bound_names firstMember) boundSecond moves⟩

/-- Automata with the same transitions that agree in all but those are the
same. -/
theorem same_of_transitions {first second : Automaton}
    (names : first.stateNames = second.stateNames) (alphabet : first.alphabet = second.alphabet)
    (start : first.start = second.start)
    (flags : ∀ state ∈ first.states, ∀ other ∈ second.states, state.name = other.name →
      state.accepting = other.accepting)
    (moves : ∀ move, move ∈ first.transitions ↔ move ∈ second.transitions) :
    first.same second = true := by
  refine same_of_named names alphabet start fun state member other otherMember name =>
    ⟨flags state member other otherMember name, ?_⟩
  rw [List.perm_ext_iff_of_nodup (nodup_named member) (nodup_named otherMember)]
  intro move
  rw [mem_named_iff member, mem_named_iff otherMember, moves, name]

theorem same_refl (automaton : Automaton) : automaton.same automaton = true :=
  same_iff.mpr ⟨List.forall₂_same.mpr fun _ _ => ⟨rfl, rfl, .refl _⟩, rfl, rfl⟩

theorem map_name_of_alike {first second : List State} (alike : List.Forall₂ Alike first second) :
    first.map State.name = second.map State.name := by
  induction alike with
  | nil => rfl
  | cons here _ inductionHypothesis =>
    rw [List.map_cons, List.map_cons, here.name, inductionHypothesis]

/-- Automata that are the same have the same names in the same order. -/
theorem stateNames_eq_of_same {first second : Automaton} (same : first.same second = true) :
    first.stateNames = second.stateNames :=
  map_name_of_alike (same_iff.mp same).1

theorem exists_alike {first second : List State} (alike : List.Forall₂ Alike first second)
    {state : State} (member : state ∈ second) : ∃ other ∈ first, Alike other state := by
  induction alike with
  | nil => cases member
  | cons here _ inductionHypothesis =>
    rcases List.mem_cons.mp member with rfl | later
    · exact ⟨_, List.mem_cons_self, here⟩
    · rcases inductionHypothesis later with ⟨other, held, matching⟩
      exact ⟨other, List.mem_cons_of_mem _ held, matching⟩

/-- Automata that are the same have the same transitions. -/
theorem mem_transitions_of_same {first second : Automaton} (same : first.same second = true)
    {move : String × Char × String} (member : move ∈ second.transitions) :
    move ∈ first.transitions := by
  rcases mem_transitions_iff.mp member with ⟨state, held, source, inside⟩
  rcases exists_alike (same_iff.mp same).1 held with ⟨other, otherHeld, alike⟩
  refine mem_transitions_iff.mpr ⟨other, otherHeld, alike.name.trans source, ?_⟩
  rw [stateNames_eq_of_same same]
  exact (alike.moves.map _).mem_iff.mpr inside

end Automaton
end FiniteAutomata
