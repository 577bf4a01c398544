import FiniteAutomata.Proofs.Automaton.Completeness
import FiniteAutomata.Proofs.Automaton.NameView

namespace FiniteAutomata
namespace Automaton

/-!
# Names and positions as two views

An automaton is held by positions and spoken of by names.  Looking a name up
goes back from a name to the one position where it stands, and the list of
transitions is what the steps between positions are by name.  So nothing is
lost on the way from one view to the other, and each transition is listed once.
-/

variable {automaton : Automaton} {index : Nat} {name : String}

/-! ## Names -/

/-- A name is found at a position exactly if it stands there. -/
theorem indexOf?_eq_some_iff_getElem? :
    automaton.indexOf? name = some index ↔ automaton.stateNames[index]? = some name := by
  rw [indexOf?_eq_some_iff, stateNames, List.getElem?_map, Option.map_eq_some_iff]
  constructor
  · rintro ⟨inside, called⟩
    rw [nameAt_eq_getElem inside] at called
    exact ⟨_, List.getElem?_eq_getElem inside, called⟩
  · rintro ⟨state, held, rfl⟩
    rcases List.getElem?_eq_some_iff.mp held with ⟨inside, rfl⟩
    exact ⟨inside, nameAt_eq_getElem inside⟩

theorem indexOf?_eq_none_iff : automaton.indexOf? name = none ↔ name ∉ automaton.stateNames := by
  rw [Option.eq_none_iff_forall_ne_some, List.mem_iff_getElem?, not_exists]
  exact forall_congr' fun index => not_congr indexOf?_eq_some_iff_getElem?

/-! ## States -/

/-- The state of a name is the entry of the arena at the position of the
name. -/
theorem state?_of_indexOf? (found : automaton.indexOf? name = some index) :
    ∃ inside : index < automaton.states.length,
      automaton.state? name = some automaton.states[index] ∧
        automaton.states[index].name = name := by
  rcases indexOf?_eq_some_iff.mp found with ⟨inside, called⟩
  rw [nameAt_eq_getElem inside] at called
  refine ⟨inside, ?_, called⟩
  rw [state?, found, Option.bind_some, List.getElem?_eq_getElem inside]

theorem state?_eq_none_iff : automaton.state? name = none ↔ automaton.indexOf? name = none := by
  cases found : automaton.indexOf? name with
  | none => simp [state?, found]
  | some index =>
    rcases state?_of_indexOf? found with ⟨inside, state, _⟩
    simp [state]

/-! ## Transitions -/

/-- Transitions are the steps between the positions of their names. -/
theorem mem_transitions_iff_step {source target : String} {symbol : Char} :
    (source, symbol, target) ∈ automaton.transitions ↔ ∃ index other,
      automaton.indexOf? source = some index ∧ automaton.indexOf? target = some other ∧
        automaton.step index symbol = some other := by
  simp only [indexOf?_eq_some_iff]
  constructor
  · intro listed
    rcases names_of_mem_transitions listed with ⟨sourceKnown, targetKnown⟩
    rcases exists_position sourceKnown with ⟨index, inside, rfl⟩
    rcases exists_position targetKnown with ⟨other, otherInside, rfl⟩
    exact ⟨index, other, ⟨inside, rfl⟩, ⟨otherInside, rfl⟩,
      (step_eq_some_iff inside).mpr ⟨otherInside, listed⟩⟩
  · rintro ⟨index, other, ⟨inside, rfl⟩, ⟨_, rfl⟩, moved⟩
    exact ((step_eq_some_iff inside).mp moved).2

theorem nodup_transitions (automaton : Automaton) : automaton.transitions.Nodup :=
  .of_map _ automaton.nodup_sources

/-- Looking a name up inverts the list of names, a state is looked up at the
position of its name, and the transitions are the steps between positions, each
listed once and no two with the same source and symbol. -/
theorem names_agree_with_positions (automaton : Automaton) :
    (∀ index (inside : index < automaton.stateNames.length),
      automaton.indexOf? automaton.stateNames[index] = some index) ∧
    (∀ name, automaton.indexOf? name = none ↔ name ∉ automaton.stateNames) ∧
    (∀ name, (automaton.state? name = none ↔ automaton.indexOf? name = none) ∧
      ∀ index, automaton.indexOf? name = some index →
        ∃ inside : index < automaton.states.length,
          automaton.state? name = some automaton.states[index] ∧
            automaton.states[index].name = name) ∧
    (∀ source symbol target, (source, symbol, target) ∈ automaton.transitions ↔ ∃ index other,
      automaton.indexOf? source = some index ∧ automaton.indexOf? target = some other ∧
        automaton.step index symbol = some other) ∧
    (∀ move ∈ automaton.transitions, automaton.transitions.count move = 1) ∧
    automaton.transitions.Pairwise fun first second =>
      (first.1, first.2.1) ≠ (second.1, second.2.1) := by
  refine ⟨?_, fun name => indexOf?_eq_none_iff, ?_, fun _ _ _ => mem_transitions_iff_step, ?_, ?_⟩
  · intro index inside
    exact indexOf?_eq_some_iff_getElem?.mpr (List.getElem?_eq_getElem inside)
  · exact fun name => ⟨state?_eq_none_iff, fun index found => state?_of_indexOf? found⟩
  · exact fun move listed => List.count_eq_one_of_mem automaton.nodup_transitions listed
  · exact List.pairwise_map.mp automaton.nodup_sources

/-- Three states with moves forwards, backwards and in place. -/
def shuttle : Automaton :=
  ⟨[⟨"near", true, [('>', 1), ('.', 0)]⟩, ⟨"middle", false, [('<', 0), ('>', 2)]⟩,
    ⟨"far", false, [('<', 1)]⟩], ['>'], some 0, by constructor <;> decide⟩

theorem names_agree_with_positions_shuttle :
    2 < shuttle.stateNames.length ∧ shuttle.indexOf? "far" = some 2 ∧
      shuttle.indexOf? "away" = none ∧
      shuttle.state? "far" = some ⟨"far", false, [('<', 1)]⟩ ∧ shuttle.state? "away" = none ∧
      ("far", '<', "middle") ∈ shuttle.transitions ∧
      shuttle.transitions.count ("far", '<', "middle") = 1 ∧
      ∃ index other, shuttle.indexOf? "far" = some index ∧
        shuttle.indexOf? "middle" = some other ∧ shuttle.step index '<' = some other := by
  rcases names_agree_with_positions shuttle with ⟨names, absent, states, moves, once, _⟩
  have far : shuttle.indexOf? "far" = some 2 := names 2 (by decide)
  have away : shuttle.indexOf? "away" = none := (absent "away").mpr (by decide)
  have listed : ("far", '<', "middle") ∈ shuttle.transitions := by decide
  rcases (states "far").2 2 far with ⟨_, state, _⟩
  exact ⟨by decide, far, away, state, (states "away").1.mpr away, listed, once _ listed,
    (moves "far" '<' "middle").mp listed⟩

end Automaton
end FiniteAutomata
