import FiniteAutomata.Proofs.Dot.Drawn
import FiniteAutomata.Proofs.Dot.Written

namespace FiniteAutomata
namespace Dot

/-!
# The picture of an automaton

The graph that the written statements of an automaton draw: its nodes, its
edges and its double circles.
-/

def picture (automaton : Automaton) : Graph :=
  Graph.empty.draw (writtenStatements automaton)

variable {automaton : Automaton}

/-! ## Nodes -/

theorem exists_movedFrom_iff {node : String} :
    (∃ statement ∈ automaton.states.flatMap fun state => movedFrom automaton state.name,
      node ∈ statement.names) ↔
        ∃ move ∈ automaton.transitions, move.1 = node ∨ move.2.2 = node := by
  constructor
  · rintro ⟨statement, among, named⟩
    rcases List.mem_flatMap.mp among with ⟨state, _, inside⟩
    rcases List.mem_map.mp inside with ⟨target, reached, rfl⟩
    rcases List.mem_map.mp (List.mem_eraseDups.mp reached) with ⟨move, found, rfl⟩
    rcases List.mem_filter.mp found with ⟨member, source⟩
    refine ⟨move, member, ?_⟩
    rw [of_decide_eq_true source]
    exact (List.mem_pair.mp named).imp Eq.symm Eq.symm
  · rintro ⟨move, member, ends⟩
    rcases List.mem_map.mp (Automaton.names_of_mem_transitions member).1 with ⟨state, held, source⟩
    have reached : move.2.2 ∈ automaton.targetsFrom state.name :=
      List.mem_map.mpr ⟨move, List.mem_filter.mpr ⟨member, decide_eq_true source.symm⟩, rfl⟩
    have drawn : moved state.name move.2.2 (automaton.symbolsBetween state.name move.2.2) ∈
        movedFrom automaton state.name :=
      List.mem_map.mpr ⟨_, List.mem_eraseDups.mpr reached, rfl⟩
    refine ⟨_, List.mem_flatMap.mpr ⟨state, held, drawn⟩, ?_⟩
    rw [source]
    exact List.mem_pair.mpr (ends.imp Eq.symm Eq.symm)

/-- The nodes are the states with a flag, those with a part in a move, and the
start with its marker. -/
theorem mem_names_picture {node : String} : node ∈ (picture automaton).names ↔
    (∃ state ∈ automaton.acceptingStates, state.name = node) ∨
      (∃ state, automaton.startState? = some state ∧ (startMarker = node ∨ state.name = node)) ∨
        ∃ move ∈ automaton.transitions, move.1 = node ∨ move.2.2 = node := by
  have head : (∃ statement ∈ [Statement.setting "rankdir" "LR",
      .defaults .node [("shape", "circle")]], node ∈ statement.names) ↔ False := by
    simp [Statement.names]
  have flags : (∃ statement ∈ automaton.acceptingStates.map fun state => accepted state.name,
      node ∈ statement.names) ↔ ∃ state ∈ automaton.acceptingStates, state.name = node := by
    simp [accepted, Statement.names, eq_comm]
  have starts : (∃ statement ∈ automaton.startState?.toList.flatMap fun state => entered state.name,
      node ∈ statement.names) ↔ ∃ state, automaton.startState? = some state ∧
        (startMarker = node ∨ state.name = node) := by
    cases automaton.startState? <;> simp [entered, Statement.names, eq_comm]
  have nothingBefore : node ∈ Graph.empty.names ↔ False := by
    simp [Graph.names, Graph.empty, Entries.keys]
  rw [picture, Graph.mem_names_draw, nothingBefore, or_false, writtenStatements, ← flags, ← starts,
    ← exists_movedFrom_iff]
  simp only [List.mem_append, or_and_right, exists_or]
  rw [head, false_or]

/-! ## Edges -/

def labelledEdge (automaton : Automaton) (source target : String) : Edge :=
  ⟨source, target, [("label", labelText (automaton.symbolsBetween source target))]⟩

/-- The edge from the marker to the start, and behind it an edge for each
target of each state. -/
theorem edges_picture : (picture automaton).edges =
    (automaton.startState?.toList.map fun state => ⟨startMarker, state.name, []⟩) ++
      automaton.states.flatMap fun state => (automaton.targetsFrom state.name).eraseDups.map
        (labelledEdge automaton state.name) := by
  have leave : ∀ statement ∈ writtenStatements automaton, statement.LeavesEdges := by
    intro statement member
    rcases cases_writtenStatements member with rfl | rfl | ⟨source, targets, attributes, rfl⟩
    · trivial
    · rintro ⟨⟩
    · trivial
  have flags : (automaton.acceptingStates.map fun state => accepted state.name).flatMap
      Statement.edges = [] := by
    rw [List.flatMap_map]
    exact List.flatMap_eq_nil_iff.mpr fun _ _ => rfl
  have starts : (automaton.startState?.toList.flatMap fun state => entered state.name).flatMap
      Statement.edges = automaton.startState?.toList.map fun state =>
        ⟨startMarker, state.name, []⟩ := by
    cases automaton.startState? <;> rfl
  have moves (source : String) : (movedFrom automaton source).flatMap Statement.edges =
      (automaton.targetsFrom source).eraseDups.map (labelledEdge automaton source) := by
    rw [movedFrom, List.flatMap_map, List.map_eq_flatMap]
    rfl
  rw [picture, Graph.edges_draw rfl leave, writtenStatements, List.flatMap_append,
    List.flatMap_append, List.flatMap_append, flags, starts, List.flatMap_assoc]
  simp only [moves]
  rfl

/-- From a state to a state leads an edge with all symbols that lead there, or
none if no symbol does. -/
theorem labels_picture {source target : String} (known : source ∈ automaton.stateNames)
    (apart : ∀ state, automaton.startState? = some state → source ≠ startMarker) :
    (picture automaton).labels source target =
      if automaton.symbolsBetween source target = [] then []
      else [some (labelText (automaton.symbolsBetween source target))] := by
  rcases List.mem_map.mp known with ⟨state, member, rfl⟩
  have fromMarker : (automaton.startState?.toList.map fun start =>
      (⟨startMarker, start.name, []⟩ : Edge)).filter
        (fun edge => edge.source = state.name ∧ edge.target = target) = [] := by
    rw [List.filter_eq_nil_iff]
    intro edge among
    rcases List.mem_map.mp among with ⟨start, starts, rfl⟩
    simp [(apart start (Option.mem_toList.mp starts)).symm]
  have fromState : (automaton.states.flatMap fun other =>
      (automaton.targetsFrom other.name).eraseDups.map (labelledEdge automaton other.name)).filter
        (fun edge => edge.source = state.name ∧ edge.target = target) =
          if target ∈ automaton.targetsFrom state.name then
            [labelledEdge automaton state.name target] else [] := by
    rw [Automaton.filter_flatMap_states member, List.filter_map]
    · have only : ((fun edge : Edge => decide (edge.source = state.name ∧ edge.target = target)) ∘
          labelledEdge automaton state.name) = fun reached => decide (reached = target) := by
        funext reached
        exact decide_eq_decide.mpr (by simp [labelledEdge])
      rw [only, List.filter_eq, (nodup_eraseDups _).count]
      by_cases reached : target ∈ automaton.targetsFrom state.name
      · rw [if_pos (List.mem_eraseDups.mpr reached), if_pos reached]
        rfl
      · rw [if_neg (mt List.mem_eraseDups.mp reached), if_neg reached]
        rfl
    · intro other _ edge among passes
      rcases List.mem_map.mp among with ⟨reached, _, rfl⟩
      exact (of_decide_eq_true passes).1
  have silent : automaton.symbolsBetween state.name target = [] ↔
      target ∉ automaton.targetsFrom state.name := Automaton.symbolsBetween_eq_nil_iff
  rw [Graph.labels, edges_picture, List.filter_append, fromMarker, fromState, List.nil_append]
  by_cases reached : target ∈ automaton.targetsFrom state.name
  · rw [if_pos reached, if_neg fun nothing => silent.mp nothing reached]
    rfl
  · rw [if_neg reached, if_pos (silent.mpr reached)]
    rfl

/-- Beside the edge to the start there is no edge at the marker. -/
theorem edgesAt_picture {start : State} (starts : automaton.startState? = some start)
    (apart : startMarker ∉ automaton.stateNames) :
    (picture automaton).edgesAt startMarker = [(startMarker, start.name)] := by
  have others : (automaton.states.flatMap fun state =>
      (automaton.targetsFrom state.name).eraseDups.map (labelledEdge automaton state.name)).filter
        (fun edge => edge.source = startMarker ∨ edge.target = startMarker) = [] := by
    rw [List.filter_eq_nil_iff]
    intro edge among touches
    rcases List.mem_flatMap.mp among with ⟨state, member, inside⟩
    rcases List.mem_map.mp inside with ⟨target, reached, rfl⟩
    rcases of_decide_eq_true touches with source | goal
    · exact apart (source ▸ Automaton.name_mem_stateNames member)
    · exact apart (goal ▸ Automaton.mem_stateNames_of_targetsFrom (List.mem_eraseDups.mp reached))
  rw [Graph.edgesAt, edges_picture, List.filter_append, others, starts]
  rfl

/-! ## Circles -/

theorem doubled_draw_accepted {graph : Graph} {states : List State} {node : String} :
    (graph.draw (states.map fun state => accepted state.name)).Doubled node ↔
      (∃ state ∈ states, state.name = node) ∨ graph.Doubled node := by
  induction states generalizing graph with
  | nil => simp [Graph.draw]
  | cons state rest inductionHypothesis =>
    have step : graph.draw ((state :: rest).map fun state => accepted state.name) =
        (graph.declare state.name [("shape", "doublecircle")]).draw
          (rest.map fun state => accepted state.name) := rfl
    rw [step, inductionHypothesis, Graph.doubled_declare_shape]
    by_cases same : node = state.name
    · simp [same]
    · simp [same, Ne.symm same]

/-- The marker is a point, whatever it was. -/
theorem doubled_draw_entered {graph : Graph} (plain : graph.Plain) {name node : String} :
    (graph.draw (entered name)).Doubled node ↔ node ≠ startMarker ∧ graph.Doubled node := by
  have marked : (graph.declare startMarker [("shape", "point")]).Plain := plain
  have step : graph.draw (entered name) =
      (graph.declare startMarker [("shape", "point")]).joinAll startMarker [] [name] := rfl
  rw [step, Graph.doubled_joinAll marked, Graph.doubled_declare_shape]
  by_cases same : node = startMarker <;> simp [same]

/-- The accepting states have double circles, and the others and the marker do
not. -/
theorem doubled_picture (apart : ∀ state, automaton.startState? = some state →
      startMarker ∉ automaton.stateNames) {node : String} :
    (picture automaton).Doubled node ↔ ∃ state ∈ automaton.acceptingStates, state.name = node := by
  let head := Graph.empty.draw [.setting "rankdir" "LR", .defaults .node [("shape", "circle")]]
  let flagged := head.draw (automaton.acceptingStates.map fun state => accepted state.name)
  have plainFlagged : flagged.Plain := by
    have plainHead : head.Plain := by decide
    refine Graph.plain_draw plainHead fun statement among => ?_
    rcases List.mem_map.mp among with ⟨state, _, rfl⟩
    exact ⟨_, _, _, rfl⟩
  have circles : flagged.Doubled node ↔ ∃ state ∈ automaton.acceptingStates, state.name = node := by
    have nothing : ¬ head.Doubled node := by rintro ⟨⟩
    exact doubled_draw_accepted.trans (or_iff_left nothing)
  have paths : ∀ statement ∈ automaton.states.flatMap fun state => movedFrom automaton state.name,
      ∃ source target attributes, statement = .chain source [target] attributes := by
    intro statement among
    rcases List.mem_flatMap.mp among with ⟨state, _, inside⟩
    rcases List.mem_map.mp inside with ⟨target, _, rfl⟩
    exact ⟨_, _, _, rfl⟩
  have whole : picture automaton = (flagged.draw (automaton.startState?.toList.flatMap fun state =>
      entered state.name)).draw (automaton.states.flatMap fun state =>
        movedFrom automaton state.name) := by
    rw [picture, writtenStatements, Graph.draw_append, Graph.draw_append, Graph.draw_append]
  rw [whole, ← circles]
  cases starts : automaton.startState? with
  | none => exact Graph.doubled_draw_paths plainFlagged paths
  | some start =>
    have single : (Option.toList (some start)).flatMap (fun state => entered state.name) =
        entered start.name := List.flatMap_singleton _ _
    have plainEntered : (flagged.draw (entered start.name)).Plain := plainFlagged
    rw [single, Graph.doubled_draw_paths plainEntered paths, doubled_draw_entered plainFlagged,
      and_iff_right_iff_imp, circles]
    rintro ⟨state, flag, rfl⟩ same
    have known := Automaton.name_mem_stateNames (List.mem_filter.mp flag).1
    exact apart start starts (same ▸ known)

end Dot
end FiniteAutomata
