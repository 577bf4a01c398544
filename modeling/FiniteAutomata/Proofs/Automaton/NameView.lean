import FiniteAutomata.Proofs.Automaton.Named

namespace FiniteAutomata
namespace Automaton

/-!
# Positions and names

Inside the arena a position and the name at it determine each other.  So a
step between positions is a transition between names, and whether a position is
accepting is a matter of its name.
-/

variable {automaton : Automaton} {index other : Nat} {name : String}

theorem nameAt_eq_getElem (inside : index < automaton.states.length) :
    automaton.nameAt index = automaton.states[index].name := by
  rw [nameAt, List.getElem?_eq_getElem inside]

theorem nameAt_mem (inside : index < automaton.states.length) :
    automaton.nameAt index ∈ automaton.stateNames := by
  rw [nameAt_eq_getElem inside]
  exact name_mem_stateNames (List.getElem_mem inside)

/-- Names tell the positions of the arena apart. -/
theorem nameAt_inj (inside : index < automaton.states.length)
    (otherInside : other < automaton.states.length) :
    automaton.nameAt index = automaton.nameAt other ↔ index = other := by
  constructor
  · intro same
    rw [nameAt_eq_getElem inside, nameAt_eq_getElem otherInside] at same
    have entries : automaton.stateNames[index]? = automaton.stateNames[other]? := by
      simp [stateNames, inside, otherInside, same]
    have bound : index < automaton.stateNames.length := by rwa [length_stateNames]
    exact (List.getElem?_inj bound automaton.sound.names_distinct).mp entries
  · rintro rfl
    rfl

/-- The name at a position has that position. -/
theorem idxOf_nameAt (inside : index < automaton.states.length) :
    automaton.stateNames.idxOf (automaton.nameAt index) = index := by
  have bound : index < automaton.stateNames.length := by rwa [length_stateNames]
  rw [nameAt_eq_getD, List.getD_eq_getElem _ _ bound]
  exact automaton.sound.names_distinct.idxOf_getElem index bound

/-- Every name stands at a position. -/
theorem exists_position (known : name ∈ automaton.stateNames) :
    ∃ index < automaton.states.length, automaton.nameAt index = name := by
  rcases List.mem_map.mp known with ⟨state, member, rfl⟩
  rcases List.getElem_of_mem member with ⟨index, inside, rfl⟩
  exact ⟨index, inside, nameAt_eq_getElem inside⟩

/-- A name is found exactly where it stands. -/
theorem indexOf?_eq_some_iff : automaton.indexOf? name = some index ↔
    index < automaton.states.length ∧ automaton.nameAt index = name := by
  rw [indexOf?, List.findIdx?_eq_some_iff_getElem]
  constructor
  · rintro ⟨inside, same, _⟩
    exact ⟨inside, by rw [nameAt_eq_getElem inside, beq_iff_eq.mp same]⟩
  · rintro ⟨inside, called⟩
    rw [nameAt_eq_getElem inside] at called
    refine ⟨inside, beq_iff_eq.mpr called, ?_⟩
    intro earlier before same
    have earlierInside := Nat.lt_trans before inside
    have together : automaton.nameAt earlier = automaton.nameAt index := by
      rw [nameAt_eq_getElem earlierInside, nameAt_eq_getElem inside, beq_iff_eq.mp same, called]
    exact Nat.ne_of_lt before ((nameAt_inj earlierInside inside).mp together)

/-- The state of a name is the one at the position of the name. -/
theorem getElem_of_name_eq (inside : index < automaton.states.length) {state : State}
    (member : state ∈ automaton.states) (same : state.name = automaton.nameAt index) :
    automaton.states[index] = state :=
  eq_of_name_eq (List.getElem_mem inside) member (by rw [← nameAt_eq_getElem inside, same])

theorem acceptsAt_iff (inside : index < automaton.states.length) :
    automaton.acceptsAt index = true ↔
      automaton.nameAt index ∈ automaton.acceptingStates.map State.name := by
  have flag : automaton.acceptsAt index = automaton.states[index].accepting := by
    rw [acceptsAt, List.getElem?_eq_getElem inside]
  rw [flag, List.mem_map]
  constructor
  · intro accepts
    refine ⟨automaton.states[index], ?_, (nameAt_eq_getElem inside).symm⟩
    exact List.mem_filter.mpr ⟨List.getElem_mem inside, accepts⟩
  · rintro ⟨state, chosen, same⟩
    rcases List.mem_filter.mp chosen with ⟨member, accepts⟩
    rwa [getElem_of_name_eq inside member same]

/-- A step is a transition between the names of its two positions. -/
theorem step_eq_some_iff (inside : index < automaton.states.length) {symbol : Char} :
    automaton.step index symbol = some other ↔ other < automaton.states.length ∧
      (automaton.nameAt index, symbol, automaton.nameAt other) ∈ automaton.transitions := by
  have member := List.getElem_mem inside
  have step : automaton.step index symbol = automaton.states[index].target? symbol := by
    rw [Automaton.step, List.getElem?_eq_getElem inside]
  rw [step, State.target?_eq_some_iff (automaton.sound.symbols_distinct _ member),
    mem_transitions_iff]
  constructor
  · intro leads
    refine ⟨automaton.sound.targets_bound _ member _ leads, _, member,
      (nameAt_eq_getElem inside).symm, ?_⟩
    exact List.mem_map.mpr ⟨(symbol, other), leads, by rw [nameAt_eq_getD automaton other]⟩
  · rintro ⟨otherInside, state, held, same, named⟩
    rcases List.mem_map.mp named with ⟨move, listed, read⟩
    rw [Prod.mk.injEq, ← nameAt_eq_getD] at read
    have bound := automaton.sound.targets_bound state held move listed
    rw [getElem_of_name_eq inside held same, ← read.1,
      ← (nameAt_inj bound otherInside).mp read.2]
    exact listed

end Automaton
end FiniteAutomata
