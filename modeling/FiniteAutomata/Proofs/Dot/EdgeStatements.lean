import FiniteAutomata.Proofs.Automaton.NameView
import FiniteAutomata.Proofs.Dot.Pieces
import Mathlib.Data.Finset.Card

namespace FiniteAutomata

/-!
# Edge statements

The moves of a state are grouped under the names of their targets.  Names tell
positions apart, so these are the groups of the positions that the state moves
to.  Each of them is written as one edge: the positions in the order in which
they are reached first, and under each the symbols that lead there in the order
of the moves.  Hence every transition is in one edge, and there are as many
edges as pairs of states with a transition in between.

The text of a graph is set down here once more, letter by letter, so that what
is said about edges is said about what a reader of the text finds there.
-/

/-- The symbols with which a state moves to a position, in the order of the
moves. -/
def State.symbolsInto (state : State) (index : Nat) : List Char :=
  state.moves.filterMap fun move => if move.2 = index then some move.1 else none

theorem State.mem_symbolsInto_iff {state : State} {index : Nat} {symbol : Char} :
    symbol ∈ state.symbolsInto index ↔ (symbol, index) ∈ state.moves := by
  rw [symbolsInto, List.mem_filterMap]
  constructor
  · rintro ⟨⟨used, target⟩, member, chosen⟩
    split at chosen
    · rename_i same
      cases chosen
      cases same
      exact member
    · cases chosen
  · exact fun member => ⟨_, member, if_pos rfl⟩

namespace Dot

/-- An edge as it is written, with the symbols of its label. -/
structure WrittenEdge where
  source : String
  target : String
  symbols : List Char
deriving DecidableEq, Repr

namespace WrittenEdge

/-- The symbols with a comma between each two. -/
def listed (edge : WrittenEdge) : List Char :=
  [','].intercalate (edge.symbols.map fun symbol => [symbol])

/-- The symbols as they stand between quotes: each quote among them has a
backslash in front. -/
def label (edge : WrittenEdge) : String :=
  .ofList (edge.listed.flatMap fun symbol => if symbol = '"' then ['\\', '"'] else [symbol])

/-- The statement of the edge. -/
def line (edge : WrittenEdge) : String :=
  "  \"" ++ edge.source ++ "\" -> \"" ++ edge.target ++ "\" [label=\"" ++ edge.label ++ "\"];"

def ends (edge : WrittenEdge) : String × String :=
  (edge.source, edge.target)

/-- The transitions that an edge shows. -/
def shown (edge : WrittenEdge) : List (String × Char × String) :=
  edge.symbols.map fun symbol => (edge.source, symbol, edge.target)

end WrittenEdge

/-- The edges that are written for a state. -/
def edgesFrom (automaton : Automaton) (state : State) : List WrittenEdge :=
  (grouped automaton state).map fun group => ⟨state.name, group.1, group.2⟩

def writtenEdges (automaton : Automaton) : List WrittenEdge :=
  automaton.states.flatMap (edgesFrom automaton)

/-! ## The text of the edges -/

theorem label_eq (edge : WrittenEdge) : label edge.symbols = edge.label := by
  have listed : (labelText edge.symbols).toList = edge.listed := by
    rw [labelText, Text.joined, String.toList_intercalate, List.map_map, WrittenEdge.listed]
    congr 1
    exact List.map_congr_left fun symbol _ => String.toList_singleton symbol
  have escape : ∀ symbol, (labelChar symbol).toList =
      if symbol = '"' then ['\\', '"'] else [symbol] := by
    intro symbol
    rw [labelChar]
    split
    · rfl
    · exact String.toList_singleton symbol
  apply String.toList_inj.mp
  rw [toList_label, listed, escaped, WrittenEdge.label, String.toList_ofList]
  exact List.flatMap_congr fun symbol _ => escape symbol

theorem edgeLine_eq (edge : WrittenEdge) :
    edgeLine edge.source edge.target edge.symbols = edge.line := by
  rw [edgeLine, label_eq, WrittenEdge.line]

/-- The lines in front of the edges. -/
def headLines (automaton : Automaton) : List String :=
  ["digraph DFA \x7b", "  rankdir=LR;", "  node [shape=circle];"] ++
    (automaton.acceptingStates.map fun state =>
      "  \"" ++ state.name ++ "\" [shape=doublecircle];") ++
    automaton.startState?.toList.flatMap fun state =>
      ["  __start__ [shape=point];", "  __start__ -> \"" ++ state.name ++ "\";"]

/-- What is written are the edges between a head and a closing brace. -/
theorem writtenLines_eq_edges (automaton : Automaton) : writtenLines automaton =
    headLines automaton ++ (writtenEdges automaton).map WrittenEdge.line ++ ["\x7d"] := by
  have edges : automaton.states.flatMap (edgeLines automaton) =
      (writtenEdges automaton).map WrittenEdge.line := by
    rw [writtenEdges, List.map_flatMap]
    refine List.flatMap_congr fun state _ => ?_
    rw [edgeLines, edgesFrom, List.map_map]
    exact List.map_congr_left fun group _ => edgeLine_eq ⟨state.name, group.1, group.2⟩
  rw [writtenLines, headLines, edges]
  cases automaton.startState? <;> simp [acceptingLine, startLines]

/-! ## Positions in place of names -/

variable {automaton : Automaton} {state : State}

/-- The edges of a state are one for each position that it moves to. -/
theorem edgesFrom_eq (member : state ∈ automaton.states) : edgesFrom automaton state =
    (state.moves.map Prod.snd).eraseDups.map fun index =>
      ⟨state.name, automaton.nameAt index, state.symbolsInto index⟩ := by
  have inside : ∀ index ∈ state.moves.map Prod.snd, index < automaton.states.length := by
    intro index reached
    rcases List.mem_map.mp reached with ⟨move, held, rfl⟩
    exact automaton.sound.targets_bound state member move held
  have names : ((state.moves.map fun move => (automaton.nameAt move.2, move.1)).map
      Prod.fst).eraseDups = (state.moves.map Prod.snd).eraseDups.map automaton.nameAt := by
    rw [← eraseDups_map_of_inj fun first among second reached =>
      (Automaton.nameAt_inj (inside first among) (inside second reached)).mp,
      List.map_map, List.map_map]
    rfl
  rw [edgesFrom, grouped, addGrouped_eq, names, List.map_map, List.map_map]
  refine List.map_congr_left fun index reached => ?_
  have bound := inside index (List.mem_eraseDups.mp reached)
  have symbols : symbolsTo (state.moves.map fun move => (automaton.nameAt move.2, move.1))
      (automaton.nameAt index) = state.symbolsInto index := by
    rw [symbolsTo, List.filterMap_map, State.symbolsInto]
    refine List.filterMap_congr fun move held => ?_
    have target := automaton.sound.targets_bound state member move held
    simp only [Function.comp_apply, Automaton.nameAt_inj target bound]
  simp only [Function.comp_apply, symbols]

theorem mem_edgesFrom_iff (member : state ∈ automaton.states) {edge : WrittenEdge} :
    edge ∈ edgesFrom automaton state ↔ ∃ move ∈ state.moves,
      edge = ⟨state.name, automaton.nameAt move.2, state.symbolsInto move.2⟩ := by
  rw [edgesFrom_eq member, List.mem_map]
  constructor
  · rintro ⟨index, reached, rfl⟩
    rcases List.mem_map.mp (List.mem_eraseDups.mp reached) with ⟨move, held, rfl⟩
    exact ⟨move, held, rfl⟩
  · rintro ⟨move, held, rfl⟩
    exact ⟨move.2, List.mem_eraseDups.mpr (List.mem_map_of_mem held), rfl⟩

/-! ## No pair of states has two edges -/

theorem nodup_ends (automaton : Automaton) :
    ((writtenEdges automaton).map WrittenEdge.ends).Nodup := by
  rw [writtenEdges, List.map_flatMap, List.nodup_flatMap]
  constructor
  · intro state member
    have targets : (edgesFrom automaton state).map WrittenEdge.ends =
        ((state.moves.map fun move => (automaton.nameAt move.2, move.1)).map
          Prod.fst).eraseDups.map (Prod.mk state.name) := by
      rw [edgesFrom, grouped, addGrouped_eq, List.map_map, List.map_map]
      rfl
    rw [targets]
    exact (nodup_eraseDups _).map fun _ _ same => (Prod.mk.inj same).2
  · have names := List.pairwise_map.mp automaton.sound.names_distinct
    refine names.imp fun {state other} apart => ?_
    intro pair mine yours
    rcases List.mem_map.mp mine with ⟨edge, drawn, rfl⟩
    rcases List.mem_map.mp yours with ⟨twin, twinDrawn, same⟩
    rcases List.mem_map.mp drawn with ⟨group, _, rfl⟩
    rcases List.mem_map.mp twinDrawn with ⟨twinGroup, _, rfl⟩
    exact apart (Prod.mk.inj same).1.symm

theorem mem_ends_iff {pair : String × String} :
    pair ∈ (writtenEdges automaton).map WrittenEdge.ends ↔
      pair ∈ automaton.transitions.map fun move => (move.1, move.2.2) := by
  rw [writtenEdges, Automaton.transitions, List.map_flatMap, List.map_flatMap]
  simp only [List.mem_flatMap]
  refine exists_congr fun state => and_congr_right fun member => ?_
  rw [List.map_map, List.mem_map, List.mem_map]
  constructor
  · rintro ⟨edge, drawn, rfl⟩
    rcases (mem_edgesFrom_iff member).mp drawn with ⟨move, held, rfl⟩
    exact ⟨move, held, rfl⟩
  · rintro ⟨move, held, rfl⟩
    exact ⟨_, (mem_edgesFrom_iff member).mpr ⟨move, held, rfl⟩, rfl⟩

/-- A move is shown by the edge to its target and by no other edge. -/
theorem shown_iff (member : state ∈ automaton.states) {move : Char × Nat}
    (held : move ∈ state.moves) {edge : WrittenEdge} (drawn : edge ∈ writtenEdges automaton) :
    (state.name, move.1, automaton.nameAt move.2) ∈ edge.shown ↔
      edge = ⟨state.name, automaton.nameAt move.2, state.symbolsInto move.2⟩ := by
  rw [WrittenEdge.shown, List.mem_map]
  constructor
  · rintro ⟨symbol, among, same⟩
    rcases List.mem_flatMap.mp drawn with ⟨other, otherMember, inside⟩
    rcases (mem_edgesFrom_iff otherMember).mp inside with ⟨twin, twinHeld, rfl⟩
    rcases Prod.mk.inj same with ⟨source, rest⟩
    rcases Automaton.eq_of_name_eq otherMember member source with rfl
    have bound := automaton.sound.targets_bound other member
    have target : twin.2 = move.2 := (Automaton.nameAt_inj (bound twin twinHeld)
      (bound move held)).mp (Prod.mk.inj rest).2
    rw [target]
  · rintro rfl
    exact ⟨move.1, State.mem_symbolsInto_iff.mpr held, rfl⟩

/-- What is shown are transitions. -/
theorem mem_transitions_of_shown {edge : WrittenEdge} (drawn : edge ∈ writtenEdges automaton)
    {move : String × Char × String} (inside : move ∈ edge.shown) :
    move ∈ automaton.transitions := by
  rcases List.mem_flatMap.mp drawn with ⟨state, member, among⟩
  rcases (mem_edgesFrom_iff member).mp among with ⟨held, _, rfl⟩
  rcases List.mem_map.mp inside with ⟨symbol, leads, rfl⟩
  exact List.mem_flatMap.mpr ⟨state, member,
    List.mem_map.mpr ⟨_, State.mem_symbolsInto_iff.mp leads, rfl⟩⟩

/-- A transition is in one edge, and nothing else is in any. -/
theorem countP_shown (automaton : Automaton) (move : String × Char × String) :
    (writtenEdges automaton).countP (fun edge => move ∈ edge.shown) =
      if move ∈ automaton.transitions then 1 else 0 := by
  split
  · rename_i transition
    rcases List.mem_flatMap.mp transition with ⟨state, member, found⟩
    rcases List.mem_map.mp found with ⟨given, held, rfl⟩
    let own : WrittenEdge :=
      ⟨state.name, automaton.nameAt given.2, state.symbolsInto given.2⟩
    have drawn : own ∈ writtenEdges automaton := List.mem_flatMap.mpr
      ⟨state, member, (mem_edgesFrom_iff member).mpr ⟨given, held, rfl⟩⟩
    have distinct : (writtenEdges automaton).Nodup := (nodup_ends automaton).of_map
    calc (writtenEdges automaton).countP
          (fun edge => (state.name, given.1, automaton.nameAt given.2) ∈ edge.shown)
        = (writtenEdges automaton).count own := List.countP_congr fun edge among => by
          simpa using shown_iff member held among
      _ = 1 := List.count_eq_one_of_mem distinct drawn
  · rename_i absent
    rw [List.countP_eq_zero]
    intro edge drawn inside
    exact absent (mem_transitions_of_shown drawn (of_decide_eq_true inside))

/-- The text is a head, the edges of the states and a closing brace, each in a
line of its own.  An edge shows its source, its target and a label with its
symbols, joined by commas.  The edges of a state are one for each target, in the
order in which the moves reach the targets first, and each is labelled with just
the symbols that lead to its target, in the order of the moves.  So every
transition is in one edge, no edge shows anything else, and there are as many
edges as pairs of a source and a target. -/
theorem edges_partition_transitions (automaton : Automaton) :
    (write automaton).toList = (headLines automaton ++
        (automaton.states.flatMap (edgesFrom automaton)).map WrittenEdge.line ++
          ["\x7d"]).flatMap (fun line => line.toList ++ ['\n']) ∧
    (∀ state ∈ automaton.states, edgesFrom automaton state =
      (state.moves.map Prod.snd).eraseDups.map fun index =>
        ⟨state.name, automaton.nameAt index, state.symbolsInto index⟩) ∧
    (∀ move, (writtenEdges automaton).countP (fun edge => move ∈ edge.shown) =
      if move ∈ automaton.transitions then 1 else 0) ∧
    (writtenEdges automaton).length =
      (automaton.transitions.map fun move => (move.1, move.2.2)).toFinset.card := by
  refine ⟨?_, fun state member => edgesFrom_eq member, countP_shown automaton, ?_⟩
  · rw [toList_write, writtenLines_eq_edges, writtenEdges]
  · have pairs : ((writtenEdges automaton).map WrittenEdge.ends).toFinset =
        (automaton.transitions.map fun move => (move.1, move.2.2)).toFinset := by
      ext pair
      rw [List.mem_toFinset, List.mem_toFinset, mem_ends_iff]
    rw [← pairs, List.toFinset_card_of_nodup (nodup_ends automaton), List.length_map]

/-- Two states, of which the first moves to both in turn, with a quote among the
symbols. -/
def alternating : Automaton :=
  ⟨[⟨"p", false, [('b', 1), ('"', 0), ('a', 1), ('c', 0)]⟩, ⟨"q", true, [('a', 1)]⟩], ['a', 'b'],
    some 0, by constructor <;> decide⟩

theorem edges_partition_alternating :
    ⟨"p", false, [('b', 1), ('"', 0), ('a', 1), ('c', 0)]⟩ ∈ alternating.states ∧
    (write alternating).toList =
      ["digraph DFA \x7b", "  rankdir=LR;", "  node [shape=circle];",
        "  \"q\" [shape=doublecircle];", "  __start__ [shape=point];", "  __start__ -> \"p\";",
        "  \"p\" -> \"q\" [label=\"b,a\"];", "  \"p\" -> \"p\" [label=\"\\\",c\"];",
        "  \"q\" -> \"q\" [label=\"a\"];", "\x7d"].flatMap (fun line => line.toList ++ ['\n']) ∧
    edgesFrom alternating ⟨"p", false, [('b', 1), ('"', 0), ('a', 1), ('c', 0)]⟩ =
      [⟨"p", "q", ['b', 'a']⟩, ⟨"p", "p", ['"', 'c']⟩] ∧
    (writtenEdges alternating).countP (fun edge => ("p", 'a', "q") ∈ edge.shown) = 1 ∧
    (writtenEdges alternating).countP (fun edge => ("q", 'b', "q") ∈ edge.shown) = 0 ∧
    (writtenEdges alternating).length = 3 := by
  have member : ⟨"p", false, [('b', 1), ('"', 0), ('a', 1), ('c', 0)]⟩ ∈ alternating.states := by
    decide
  rcases edges_partition_transitions alternating with ⟨text, edges, once, pairs⟩
  refine ⟨member, text.trans (congrArg (List.flatMap _) (by decide +kernel)),
    (edges _ member).trans (by decide), (once _).trans (by decide), (once _).trans (by decide),
    pairs.trans (by decide)⟩

end Dot
end FiniteAutomata
