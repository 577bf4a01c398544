import FiniteAutomata.Automaton.Dot
import FiniteAutomata.Proofs.Automaton.Named
import FiniteAutomata.Proofs.FirstOccurrences

namespace FiniteAutomata

/-!
# Grouped moves

A state has one group for each target of its moves.  The targets stand where
they are reached first, and the symbols of a group are just those that lead to
its target, in the order of the moves.
-/

namespace Entries

variable {κ ν : Type} [DecidableEq κ]

theorem lookup_map_key (keys : List κ) (value : κ → ν) (key : κ) :
    (keys.map fun known => (known, value known)).lookup key =
      if key ∈ keys then some (value key) else none := by
  induction keys with
  | nil => rfl
  | cons first rest inductionHypothesis =>
    rw [List.map_cons, lookup_entry, inductionHypothesis]
    by_cases same : key = first
    · subst same
      simp
    · simp [same]

/-- A known key is given its value where it stands. -/
theorem insert_map_key {keys : List κ} (distinct : keys.Nodup) {key : κ} (known : key ∈ keys)
    (given : ν) (value : κ → ν) :
    insert key given (keys.map fun other => (other, value other)) =
      keys.map fun other => (other, if other = key then given else value other) := by
  induction keys with
  | nil => cases known
  | cons first rest inductionHypothesis =>
    rcases List.nodup_cons.mp distinct with ⟨fresh, later⟩
    rw [List.map_cons, List.map_cons, insert]
    by_cases same : first = key
    · subst same
      have kept : ∀ other ∈ rest, (other, value other) =
          (other, if other = first then given else value other) := by
        intro other member
        rw [if_neg fun reached : other = first => fresh (reached ▸ member)]
      rw [if_pos rfl, if_pos rfl, List.map_congr_left kept]
    · have behind := (List.mem_cons.mp known).resolve_left (Ne.symm same)
      rw [if_neg same, if_neg same, inductionHypothesis later behind]

end Entries

namespace Dot

/-- The symbols that lead to a target, in their order. -/
def symbolsTo (moves : List (String × Char)) (target : String) : List Char :=
  moves.filterMap fun move => if move.1 = target then some move.2 else none

theorem symbolsTo_concat (moves : List (String × Char)) (move : String × Char) (target : String) :
    symbolsTo (moves ++ [move]) target =
      symbolsTo moves target ++ if move.1 = target then [move.2] else [] := by
  rw [symbolsTo, symbolsTo, List.filterMap_append]
  by_cases same : move.1 = target <;> simp [same]

theorem symbolsTo_eq_nil_iff {moves : List (String × Char)} {target : String} :
    symbolsTo moves target = [] ↔ target ∉ moves.map Prod.fst := by
  rw [symbolsTo, List.filterMap_eq_nil_iff]
  constructor
  · intro silent among
    rcases List.mem_map.mp among with ⟨move, member, rfl⟩
    simpa using silent move member
  · intro absent move member
    rw [if_neg fun reached : move.1 = target => absent (reached ▸ List.mem_map_of_mem member)]

theorem addGrouped_concat (groups : List (String × List Char)) (moves : List (String × Char))
    (move : String × Char) : addGrouped groups (moves ++ [move]) =
      Entries.insert move.1 (((addGrouped groups moves).lookup move.1).getD [] ++ [move.2])
        (addGrouped groups moves) := by
  induction moves generalizing groups with
  | nil => rfl
  | cons first rest inductionHypothesis => exact inductionHypothesis _

/-- Grouped moves are the targets in the order in which they are reached first,
each with the symbols that lead to it. -/
theorem addGrouped_eq (moves : List (String × Char)) : addGrouped [] moves =
    (moves.map Prod.fst).eraseDups.map fun target => (target, symbolsTo moves target) := by
  induction moves using List.reverseRecOn with
  | nil => rfl
  | append_singleton earlier move inductionHypothesis =>
    rw [addGrouped_concat, inductionHypothesis, Entries.lookup_map_key, List.map_append,
      List.map_singleton, eraseDups_concat]
    by_cases known : move.1 ∈ earlier.map Prod.fst
    · have among := List.mem_eraseDups.mpr known
      rw [if_pos known, if_pos among, Entries.insert_map_key (nodup_eraseDups _) among]
      apply List.map_congr_left
      intro target _
      rw [symbolsTo_concat]
      by_cases same : target = move.1
      · rw [if_pos same, if_pos same.symm, same]
        rfl
      · rw [if_neg same, if_neg (Ne.symm same), List.append_nil]
    · have fresh : move.1 ∉ Entries.keys ((earlier.map Prod.fst).eraseDups.map fun target =>
          (target, symbolsTo earlier target)) := by
        simpa [Entries.keys] using known
      rw [if_neg known, if_neg (mt List.mem_eraseDups.mp known), Entries.insert_of_notMem fresh,
        List.map_append, List.map_singleton, symbolsTo_concat, if_pos rfl,
        symbolsTo_eq_nil_iff.mpr known]
      refine congrArg (· ++ _) (List.map_congr_left fun target among => ?_)
      have apart : move.1 ≠ target := fun same =>
        known (same ▸ List.mem_eraseDups.mp among)
      rw [symbolsTo_concat, if_neg apart, List.append_nil]

end Dot

namespace Automaton

/-- The symbols that lead from a state to a state, in the order in which the
state holds them. -/
def symbolsBetween (automaton : Automaton) (source target : String) : List Char :=
  automaton.transitions.filterMap fun move =>
    if move.1 = source ∧ move.2.2 = target then some move.2.1 else none

/-- The targets of the moves of a state. -/
def targetsFrom (automaton : Automaton) (source : String) : List String :=
  (automaton.transitions.filter fun move => move.1 = source).map fun move => move.2.2

variable {automaton : Automaton}

theorem symbolsBetween_eq_nil_iff {source target : String} :
    automaton.symbolsBetween source target = [] ↔ target ∉ automaton.targetsFrom source := by
  rw [symbolsBetween, targetsFrom, List.filterMap_eq_nil_iff, List.mem_map]
  constructor
  · rintro silent ⟨move, member, rfl⟩
    rw [List.mem_filter] at member
    simpa [of_decide_eq_true member.2] using silent move member.1
  · intro absent move member
    rw [if_neg]
    rintro ⟨leaves, arrives⟩
    exact absent ⟨move, List.mem_filter.mpr ⟨member, decide_eq_true leaves⟩, arrives⟩

/-- Symbols lead only from states to states. -/
theorem names_of_symbolsBetween {source target : String}
    (present : automaton.symbolsBetween source target ≠ []) :
    source ∈ automaton.stateNames ∧ target ∈ automaton.stateNames := by
  rw [Ne, symbolsBetween_eq_nil_iff, not_not] at present
  rcases List.mem_map.mp present with ⟨move, found, rfl⟩
  rcases List.mem_filter.mp found with ⟨member, leaves⟩
  rw [← of_decide_eq_true leaves]
  exact names_of_mem_transitions member

theorem mem_stateNames_of_targetsFrom {source target : String}
    (reached : target ∈ automaton.targetsFrom source) : target ∈ automaton.stateNames := by
  rcases List.mem_map.mp reached with ⟨move, member, rfl⟩
  exact (names_of_mem_transitions (List.mem_filter.mp member).1).2

/-- The groups of a state are its targets in the order in which they are
reached first, each with the symbols that lead there. -/
theorem grouped_eq {state : State} (member : state ∈ automaton.states) :
    Dot.grouped automaton state = (automaton.targetsFrom state.name).eraseDups.map fun target =>
      (target, automaton.symbolsBetween state.name target) := by
  have own : automaton.transitions.filter (fun move => move.1 = state.name) =
      state.moves.map fun move => (state.name, move.1, automaton.nameAt move.2) := by
    rw [filter_transitions member, State.named, List.map_map]
    refine List.map_congr_left fun move _ => ?_
    rw [nameAt_eq_getD]
    rfl
  have targets : automaton.targetsFrom state.name =
      (state.moves.map fun move => (automaton.nameAt move.2, move.1)).map Prod.fst := by
    rw [targetsFrom, own, List.map_map, List.map_map]
    rfl
  have symbols (target : String) : automaton.symbolsBetween state.name target =
      Dot.symbolsTo (state.moves.map fun move => (automaton.nameAt move.2, move.1)) target := by
    have inOwn : automaton.symbolsBetween state.name target =
        (automaton.transitions.filter fun move => move.1 = state.name).filterMap fun move =>
          if move.2.2 = target then some move.2.1 else none := by
      rw [List.filterMap_filter]
      refine List.filterMap_congr fun move _ => ?_
      by_cases same : move.1 = state.name <;> simp [same]
    rw [inOwn, own, Dot.symbolsTo, List.filterMap_map, List.filterMap_map]
    rfl
  rw [Dot.grouped, Dot.addGrouped_eq, targets]
  exact List.map_congr_left fun target _ => by rw [symbols]

end Automaton
end FiniteAutomata
