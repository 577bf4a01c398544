import FiniteAutomata.Proofs.Automaton.Reached
import Mathlib.Data.List.ProdSigma

namespace FiniteAutomata
namespace Automaton

/-!
# Missing moves

The pairs of a state and a symbol of the alphabet fall into those from which a
move leads and those that are missing.  Since names, symbols and the moves of a
state are told apart, no pair is in a list twice, so the missing ones are what
is left of all pairs when the moves are taken away.  In a complete automaton
nothing is left, and no word over the alphabet gets stuck.
-/

variable {automaton : Automaton} {index : Nat}

/-! ## Pairs from which moves lead -/

/-- The states and symbols from which moves lead, in the order of the
transitions. -/
def sources (automaton : Automaton) : List (String × Char) :=
  automaton.transitions.map fun move => (move.1, move.2.1)

theorem sources_eq (automaton : Automaton) : automaton.sources =
    automaton.states.flatMap fun state => state.moves.map fun move => (state.name, move.1) := by
  simp [sources, transitions, List.map_flatMap, Function.comp_def]

theorem mem_sources_iff {pair : String × Char} : pair ∈ automaton.sources ↔
    ∃ state ∈ automaton.states, state.name = pair.1 ∧ pair.2 ∈ state.moves.map Prod.fst := by
  rw [sources_eq, List.mem_flatMap]
  refine exists_congr fun state => and_congr_right fun _ => ?_
  simp only [List.mem_map, Prod.ext_iff]
  tauto

/-- A pair of a state leads somewhere if the state has a move for the symbol. -/
theorem mem_sources_of_state {state : State} (member : state ∈ automaton.states) {symbol : Char} :
    (state.name, symbol) ∈ automaton.sources ↔ symbol ∈ state.moves.map Prod.fst := by
  rw [mem_sources_iff]
  constructor
  · rintro ⟨other, held, same, used⟩
    rwa [← eq_of_name_eq held member same]
  · exact fun used => ⟨state, member, rfl, used⟩

/-- At most one move leads from a pair. -/
theorem nodup_sources (automaton : Automaton) : automaton.sources.Nodup := by
  rw [sources_eq, List.nodup_flatMap]
  constructor
  · intro state member
    have distinct := automaton.sound.symbols_distinct state member
    rw [← Function.comp_def (Prod.mk state.name) Prod.fst, ← List.map_map]
    exact distinct.map fun _ _ same => (Prod.mk.inj same).2
  · have names := List.pairwise_map.mp automaton.sound.names_distinct
    refine names.imp fun {state other} apart => ?_
    intro pair mine yours
    rcases List.mem_map.mp mine with ⟨move, _, rfl⟩
    rcases List.mem_map.mp yours with ⟨_, _, same⟩
    exact apart (Prod.mk.inj same).1.symm

/-! ## What is missing -/

theorem nodup_pairs (automaton : Automaton) :
    (automaton.stateNames ×ˢ automaton.alphabet).Nodup :=
  List.Nodup.product automaton.sound.names_distinct automaton.sound.alphabet_distinct

/-- Missing are the pairs from which no move leads. -/
theorem missingTransitions_eq (automaton : Automaton) : automaton.missingTransitions =
    (automaton.stateNames ×ˢ automaton.alphabet).filter fun pair => pair ∉ automaton.sources := by
  change _ = (automaton.stateNames.product automaton.alphabet).filter _
  rw [missingTransitions, List.product, stateNames, List.flatMap_map, List.filter_flatMap]
  refine List.flatMap_congr fun state member => ?_
  rw [List.filter_map]
  congr 1
  refine List.filter_congr fun symbol _ => ?_
  rw [Bool.eq_iff_iff, Option.isNone_iff_eq_none, State.target?_eq_none_iff,
    ← mem_sources_of_state member]
  exact decide_eq_true_iff.symm

/-- The pairs from which moves lead are, as far as they have a symbol of the
alphabet, pairs of a state and a symbol. -/
theorem sources_perm (automaton : Automaton) :
    (automaton.sources.filter fun pair => pair.2 ∈ automaton.alphabet).Perm
      ((automaton.stateNames ×ˢ automaton.alphabet).filter fun pair =>
        pair ∈ automaton.sources) := by
  rw [List.perm_ext_iff_of_nodup (automaton.nodup_sources.filter _) (automaton.nodup_pairs.filter _)]
  rintro ⟨name, symbol⟩
  simp only [List.mem_filter, List.mem_product, decide_eq_true_eq]
  constructor
  · rintro ⟨leads, among⟩
    rcases mem_sources_iff.mp leads with ⟨state, member, rfl, _⟩
    exact ⟨⟨name_mem_stateNames member, among⟩, leads⟩
  · rintro ⟨⟨_, among⟩, leads⟩
    exact ⟨leads, among⟩

/-- The missing pairs and those from which moves lead are all pairs. -/
theorem length_missingTransitions (automaton : Automaton) :
    automaton.missingTransitions.length +
        (automaton.sources.filter fun pair => pair.2 ∈ automaton.alphabet).length =
      automaton.states.length * automaton.alphabet.length := by
  have parts := List.length_eq_length_filter_add (l := automaton.stateNames ×ˢ automaton.alphabet)
    fun pair => decide (pair ∈ automaton.sources)
  rw [List.length_product, length_stateNames] at parts
  rw [automaton.sources_perm.length_eq, missingTransitions_eq, parts, Nat.add_comm]
  simp only [decide_not]

/-- A pair of a state and a symbol is missing or leads somewhere, once. -/
theorem count_missingTransitions {pair : String × Char}
    (member : pair ∈ automaton.stateNames ×ˢ automaton.alphabet) :
    (automaton.missingTransitions.count pair = 1 ∧ automaton.sources.count pair = 0) ∨
      (automaton.missingTransitions.count pair = 0 ∧ automaton.sources.count pair = 1) := by
  have distinct : automaton.missingTransitions.Nodup := by
    rw [missingTransitions_eq]
    exact automaton.nodup_pairs.filter _
  have missing : pair ∈ automaton.missingTransitions ↔ pair ∉ automaton.sources := by
    rw [missingTransitions_eq, List.mem_filter, decide_eq_true_iff]
    exact and_iff_right member
  by_cases leads : pair ∈ automaton.sources
  · right
    exact ⟨List.count_eq_zero_of_not_mem fun absent => missing.mp absent leads,
      List.count_eq_one_of_mem automaton.nodup_sources leads⟩
  · left
    exact ⟨List.count_eq_one_of_mem distinct (missing.mpr leads),
      List.count_eq_zero_of_not_mem leads⟩

/-! ## Complete automata -/

/-- From a state of a complete automaton every word over the alphabet leads
somewhere. -/
theorem exists_reach? (complete : automaton.isComplete = true)
    (inside : index < automaton.states.length) {word : List Char}
    (listed : ∀ symbol ∈ word, symbol ∈ automaton.alphabet) :
    ∃ last, automaton.reach? index word = some last := by
  induction word generalizing index with
  | nil => exact ⟨index, rfl⟩
  | cons symbol rest inductionHypothesis =>
    rcases List.forall_mem_cons.mp listed with ⟨among, others⟩
    have used := isComplete_iff.mp complete _ (List.getElem_mem inside) symbol among
    have step : automaton.step index symbol = automaton.states[index].target? symbol := by
      rw [Automaton.step, List.getElem?_eq_getElem inside]
    cases moved : automaton.step index symbol with
    | none => exact absurd used (State.target?_eq_none_iff.mp (step.symm.trans moved))
    | some next =>
      rcases inductionHypothesis (step_bound moved) others with ⟨last, reached⟩
      exact ⟨last, by rw [reach?_cons, moved, Option.bind_some, reached]⟩

/-- Each pair of a state and a symbol of the alphabet is either missing, once, or
has one move, and never both; so the missing pairs and the moves with symbols of
the alphabet are as many as there are pairs.  If nothing is missing and there is
a start, every word over the alphabet is read to its end. -/
theorem missing_or_moves_once (automaton : Automaton) :
    (∀ name ∈ automaton.stateNames, ∀ symbol ∈ automaton.alphabet,
      (automaton.missingTransitions.count (name, symbol) = 1 ∧
          automaton.transitions.countP (fun move => (move.1, move.2.1) = (name, symbol)) = 0) ∨
        (automaton.missingTransitions.count (name, symbol) = 0 ∧
          automaton.transitions.countP (fun move => (move.1, move.2.1) = (name, symbol)) = 1)) ∧
    automaton.missingTransitions.length +
        automaton.transitions.countP (fun move => move.2.1 ∈ automaton.alphabet) =
      automaton.states.length * automaton.alphabet.length ∧
    (automaton.isComplete = true → automaton.start ≠ none →
      ∀ word : String, (∀ symbol ∈ word.toList, symbol ∈ automaton.alphabet) →
        (automaton.run word).consumed = word.length ∧ (automaton.run word).symbol = none) := by
  refine ⟨?_, ?_, ?_⟩
  · intro name known symbol among
    have count : automaton.transitions.countP (fun move => (move.1, move.2.1) = (name, symbol)) =
        automaton.sources.count (name, symbol) := by
      rw [sources, List.count, List.countP_map]
      exact List.countP_congr fun move _ => by simp
    rw [count]
    exact count_missingTransitions (List.mem_product.mpr ⟨known, among⟩)
  · have count : automaton.transitions.countP (fun move => move.2.1 ∈ automaton.alphabet) =
        (automaton.sources.filter fun pair => pair.2 ∈ automaton.alphabet).length := by
      rw [sources, ← List.countP_eq_length_filter, List.countP_map]
      rfl
    rw [count]
    exact automaton.length_missingTransitions
  · intro complete started word listed
    rcases Option.ne_none_iff_exists'.mp started with ⟨start, begins⟩
    have inside := automaton.sound.start_bound start begins
    have reports := runFrom_reports inside word
    rcases exists_reach? complete inside listed with ⟨last, reached⟩
    have whole : (automaton.runFrom start word).consumed = word.toList.length := by
      refine Nat.le_antisymm reports.within ((reports.longest _ (Nat.le_refl _)).mp ?_)
      rw [List.take_length, reached]
      rfl
    rw [run, begins]
    refine ⟨whole.trans String.length_toList, ?_⟩
    rw [reports.symbol, whole, List.getElem?_eq_none (Nat.le_refl _)]

/-- Two states that count a symbol modulo two, and a move on another symbol that
is not in the alphabet. -/
def toggle : Automaton :=
  ⟨[⟨"even", true, [('x', 1)]⟩, ⟨"odd", false, [('y', 1), ('x', 0)]⟩], ['x'], some 0,
    by constructor <;> decide⟩

theorem missing_or_moves_once_toggle :
    "odd" ∈ toggle.stateNames ∧ 'x' ∈ toggle.alphabet ∧
    ((toggle.missingTransitions.count ("odd", 'x') = 1 ∧
        toggle.transitions.countP (fun move => (move.1, move.2.1) = ("odd", 'x')) = 0) ∨
      (toggle.missingTransitions.count ("odd", 'x') = 0 ∧
        toggle.transitions.countP (fun move => (move.1, move.2.1) = ("odd", 'x')) = 1)) ∧
    toggle.transitions.length = 3 ∧
    toggle.transitions.countP (fun move => move.2.1 ∈ toggle.alphabet) = 2 ∧
    toggle.isComplete = true ∧ toggle.start ≠ none ∧
      (∀ symbol ∈ "xxx".toList, symbol ∈ toggle.alphabet) ∧
        (toggle.run "xxx").consumed = "xxx".length ∧ (toggle.run "xxx").symbol = none := by
  have state : "odd" ∈ toggle.stateNames := by decide
  have symbol : 'x' ∈ toggle.alphabet := by decide
  have complete : toggle.isComplete = true := by decide
  have started : toggle.start ≠ none := by decide
  have listed : ∀ symbol ∈ "xxx".toList, symbol ∈ toggle.alphabet := by simp [toggle]
  rcases missing_or_moves_once toggle with ⟨once, _, reads⟩
  exact ⟨state, symbol, once "odd" state 'x' symbol, by decide, by decide, complete, started,
    listed, reads complete started "xxx" listed⟩

end Automaton
end FiniteAutomata
