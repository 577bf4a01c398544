import Mathlib.Data.Finset.Max
import Mathlib.Tactic.MkIffOfInductiveProp
import FiniteAutomata.Proofs.Automaton.Proper
import FiniteAutomata.Proofs.Dot.Picture
import FiniteAutomata.Proofs.Dot.Unread

namespace FiniteAutomata
namespace Dot

/-!
# What a written automaton denotes

A graph denotes an automaton if its nodes are the states and a marker for the
start, with double circles around the accepting states, an edge from the marker
to the start, and an edge with all symbols between any two states between which
a symbol leads.

Every draft can be built, but not everything that is built is denoted by its
text.  Names are written between quotes as they are, so a quote in a name cuts
it into pieces, and a backslash at the end of a name or a label takes its last
quote away.  The marker has a name that a state can have.  And a state without
a flag and without edges is not mentioned at all.  Every other automaton is
denoted by its text.
-/

/-- The graph is a drawing of the automaton with the marker for its start. -/
structure Denotes (graph : Graph) (automaton : Automaton) (marker : Option String) : Prop where
  marked : marker.isSome = automaton.start.isSome
  apart : ∀ node, marker = some node → node ∉ automaton.stateNames
  nodes : ∀ node, node ∈ graph.names ↔ node ∈ automaton.stateNames ∨ marker = some node
  circles : ∀ node, graph.property? node "shape" = some "doublecircle" ↔
    ∃ state ∈ automaton.acceptingStates, state.name = node
  entry : ∀ node, marker = some node → ∃ state, automaton.startState? = some state ∧
    graph.edgesAt node = [(node, state.name)]
  labels : ∀ source ∈ automaton.stateNames, ∀ target ∈ automaton.stateNames,
    graph.labels source target =
      if automaton.symbolsBetween source target = [] then []
      else [some (labelText (automaton.symbolsBetween source target))]

/-- The text is well formed, and the graph that it draws denotes the
automaton. -/
def Denoted (text : String) (automaton : Automaton) : Prop :=
  ∃ graph marker, read? text = some graph ∧ Denotes graph automaton marker

/-- The automata that are denoted by what is written for them. -/
@[mk_iff]
structure Drawable (automaton : Automaton) : Prop where
  clear : ∀ name ∈ automaton.stateNames, '"' ∉ name.toList
  closed : ∀ name ∈ automaton.stateNames, name.toList.getLast? ≠ some '\\'
  labels : ∀ source ∈ automaton.stateNames, ∀ target ∈ automaton.stateNames,
    (automaton.symbolsBetween source target).getLast? ≠ some '\\'
  apart : automaton.start.isSome = true → startMarker ∉ automaton.stateNames
  mentioned : ∀ state ∈ automaton.states, state.accepting = true ∨
    automaton.startState? = some state ∨
      ∃ move ∈ automaton.transitions, move.1 = state.name ∨ move.2.2 = state.name

instance (automaton : Automaton) : Decidable (Drawable automaton) :=
  decidable_of_iff' _ (drawable_iff automaton)

/-- Quotes and backslashes among the symbols do no harm before other symbols. -/
example : Drawable (Draft.Proper.empty.after [.addState "q" true, .addMove "q" "\"" "q",
    .addMove "q" "\\" "q", .addMove "q" "a" "q", .setStart "q"]).automaton := by
  decide +kernel

variable {automaton : Automaton}

theorem Drawable.readable (drawable : Drawable automaton) : Readable automaton where
  clear := drawable.clear
  closed := drawable.closed
  labels := by
    intro source target
    rw [closed_labelText_iff]
    by_cases silent : automaton.symbolsBetween source target = []
    · simp [silent]
    · have known := Automaton.names_of_symbolsBetween silent
      exact drawable.labels source known.1 target known.2

theorem exists_startState?_iff :
    (∃ state, automaton.startState? = some state) ↔ automaton.start.isSome = true := by
  rw [Automaton.startState?]
  cases begins : automaton.start with
  | none => simp
  | some index =>
    have inside := automaton.sound.start_bound index begins
    simp [inside]

/-! ## Texts that denote -/

/-- The picture of a drawable automaton denotes it. -/
theorem Drawable.denotes (drawable : Drawable automaton) :
    Denotes (picture automaton) automaton (automaton.startState?.map fun _ => startMarker) := by
  have apart {state : State} (starts : automaton.startState? = some state) :
      startMarker ∉ automaton.stateNames :=
    drawable.apart (exists_startState?_iff.mp ⟨state, starts⟩)
  exact {
    marked := by
      rw [Option.isSome_map, Bool.eq_iff_iff, Option.isSome_iff_exists]
      exact exists_startState?_iff
    apart := by
      intro node isMarked
      rcases Option.map_eq_some_iff.mp isMarked with ⟨state, starts, rfl⟩
      exact apart starts
    nodes := by
      intro node
      rw [mem_names_picture]
      constructor
      · rintro (⟨state, flag, rfl⟩ | ⟨state, starts, rfl | rfl⟩ | ⟨move, member, rfl | rfl⟩)
        · exact Or.inl (Automaton.name_mem_stateNames (List.mem_filter.mp flag).1)
        · exact Or.inr (by rw [starts]; rfl)
        · exact Or.inl (Automaton.name_mem_stateNames (Automaton.mem_states_of_startState? starts))
        · exact Or.inl (Automaton.names_of_mem_transitions member).1
        · exact Or.inl (Automaton.names_of_mem_transitions member).2
      · rintro (known | isMarked)
        · rcases List.mem_map.mp known with ⟨state, member, rfl⟩
          rcases drawable.mentioned state member with flag | starts | moves
          · exact Or.inl ⟨state, List.mem_filter.mpr ⟨member, flag⟩, rfl⟩
          · exact Or.inr (Or.inl ⟨state, starts, Or.inr rfl⟩)
          · exact Or.inr (Or.inr moves)
        · rcases Option.map_eq_some_iff.mp isMarked with ⟨state, starts, rfl⟩
          exact Or.inr (Or.inl ⟨state, starts, Or.inl rfl⟩)
    circles := fun node => doubled_picture fun _ => apart
    entry := by
      intro node isMarked
      rcases Option.map_eq_some_iff.mp isMarked with ⟨state, starts, rfl⟩
      exact ⟨state, starts, edgesAt_picture starts (apart starts)⟩
    labels := by
      intro source known target _
      exact labels_picture known fun state starts same => apart starts (same ▸ known) }

/-! ## Texts that do not -/

/-- If a name has a quote in it, there is a longest one. -/
theorem exists_longest {names : List String} (cut : ¬ ∀ name ∈ names, '"' ∉ name.toList) :
    ∃ name ∈ names, '"' ∈ name.toList ∧
      ∀ other ∈ names, '"' ∈ other.toList → other.toList.length ≤ name.toList.length := by
  have present : (names.filter fun name => '"' ∈ name.toList).toFinset.Nonempty := by
    push Not at cut
    rcases cut with ⟨name, known, quoted⟩
    exact ⟨name, by simp [known, quoted]⟩
  rcases Finset.exists_max_image _ (fun name => name.toList.length) present with
    ⟨name, among, longest⟩
  simp only [List.mem_toFinset, List.mem_filter, decide_eq_true_eq] at among longest
  exact ⟨name, among.1, among.2, fun other known quoted => longest other ⟨known, quoted⟩⟩

/-- What denotes can be read as it was meant: the names are IDs, and the labels
are values. -/
theorem readable_of_denoted (denoted : Denoted (write automaton) automaton) :
    Readable automaton := by
  rcases denoted with ⟨graph, marker, read, denotes⟩
  rcases Option.bind_eq_some_iff.mp read with ⟨tokens, scanned, parsed⟩
  rcases Option.map_eq_some_iff.mp parsed with ⟨list, foundList, rfl⟩
  have within := within_of_parse foundList
  have ended := sealed_of_tokens? scanned
  have ids : ∀ name ∈ automaton.stateNames, Token.id name ∈ tokens := by
    intro name known
    rcases Graph.mem_names_draw.mp ((denotes.nodes name).mpr (Or.inl known)) with
      ⟨statement, member, named⟩ | before
    · exact (within statement member).names name named
    · cases before
  have closed : ∀ name ∈ automaton.stateNames, Closed name.toList :=
    fun name known => ended _ (ids name known)
  have labels : ∀ source target,
      Closed (labelText (automaton.symbolsBetween source target)).toList := by
    intro source target
    by_cases silent : automaton.symbolsBetween source target = []
    · rw [silent]
      exact closed_nil
    · have values : Graph.EdgesHave (fun entry => Token.value entry.2 ∈ tokens)
          (Graph.empty.draw list) :=
        Graph.EdgesHave.draw ⟨by rintro entry ⟨⟩, by rintro edge ⟨⟩⟩
          fun statement member => (within statement member).values
      have known := Automaton.names_of_symbolsBetween silent
      have drawn := denotes.labels source known.1 target known.2
      rw [if_neg silent] at drawn
      exact ended _ (values.label (drawn ▸ List.mem_singleton_self _))
  refine ⟨?_, closed, labels⟩
  by_contra cut
  rcases exists_longest cut with ⟨name, known, quoted, longest⟩
  have harmless : ∀ other ∈ automaton.stateNames, Harmless name other :=
    fun other among => ⟨closed other among, longest other among⟩
  exact id_notMem_of_longest quoted harmless labels scanned (ids name known)

/-- An automaton is denoted by its text exactly if its names and labels can be
read, its marker is no state, and all its states are mentioned. -/
theorem denoted_write_iff : Denoted (write automaton) automaton ↔ Drawable automaton := by
  constructor
  · intro denoted
    have readable := readable_of_denoted denoted
    rcases denoted with ⟨graph, marker, read, denotes⟩
    rw [read?_write readable] at read
    cases read
    -- The marker is a node but no state, and only one node of the picture can be that.
    have isMarker : ∀ node, marker = some node → node = startMarker := by
      intro node marks
      rcases mem_names_picture.mp ((denotes.nodes node).mpr (Or.inr marks)) with
        ⟨state, flag, rfl⟩ | ⟨state, starts, rfl | rfl⟩ | ⟨move, member, rfl | rfl⟩
      · exact absurd (Automaton.name_mem_stateNames (List.mem_filter.mp flag).1)
          (denotes.apart _ marks)
      · rfl
      · exact absurd (Automaton.name_mem_stateNames (Automaton.mem_states_of_startState? starts))
          (denotes.apart _ marks)
      · exact absurd (Automaton.names_of_mem_transitions member).1 (denotes.apart _ marks)
      · exact absurd (Automaton.names_of_mem_transitions member).2 (denotes.apart _ marks)
    have apart : automaton.start.isSome = true → startMarker ∉ automaton.stateNames := by
      intro begins
      rw [← denotes.marked, Option.isSome_iff_exists] at begins
      rcases begins with ⟨node, marks⟩
      exact isMarker node marks ▸ denotes.apart node marks
    refine ⟨readable.clear, readable.closed,
      fun source _ target _ => closed_labelText_iff.mp (readable.labels source target), apart, ?_⟩
    intro state member
    have known := Automaton.name_mem_stateNames member
    rcases mem_names_picture.mp ((denotes.nodes state.name).mpr (Or.inl known)) with
      ⟨other, flag, same⟩ | ⟨other, starts, same | same⟩ | moves
    · rcases List.mem_filter.mp flag with ⟨held, accepting⟩
      exact Or.inl (Automaton.eq_of_name_eq held member same ▸ accepting)
    · have begins := exists_startState?_iff.mp ⟨other, starts⟩
      exact absurd (same ▸ known) (apart begins)
    · have held := Automaton.mem_states_of_startState? starts
      exact Or.inr (Or.inl (Automaton.eq_of_name_eq held member same ▸ starts))
    · exact Or.inr (Or.inr moves)
  · intro drawable
    exact ⟨_, _, read?_write drawable.readable, drawable.denotes⟩

/-- A draft can be built whatever was asked of it, and what is built is denoted
by its text exactly if no name has a quote in it, no name and no label ends in a
backslash, the marker of the start is no state, and every state is accepting, or
the start, or has a part in a move. -/
theorem built_denoted_iff (calls : List Draft.Call) :
    ∃ automaton, (Draft.empty.after calls).build = .ok automaton ∧
      (Denoted (write automaton) automaton ↔ Drawable automaton) := by
  have proper := Draft.Proper.empty.after calls
  exact ⟨proper.automaton, proper.build, denoted_write_iff⟩

/-! ## Drafts that are not denoted -/

/-- A quote in a name, a backslash at the end of a name and of a label, a start
with the name of the marker, and a state that nothing mentions. -/
def misdrawn : List (List Draft.Call) :=
  [[.addState "a\"b" true, .setStart "a\"b"],
    [.addState "a\\" true, .setStart "a\\"],
    [.addState "q" true, .setStart "q", .addMove "q" "\\" "q"],
    [.addState "__start__" true, .setStart "__start__"],
    [.addState "p" true, .addState "q" false, .setStart "p"]]

/-- What the calls build is not denoted by its text. -/
def Misdraws (calls : List Draft.Call) : Prop :=
  ∃ automaton, (Draft.empty.after calls).build = .ok automaton ∧
    ¬ Denoted (write automaton) automaton

theorem built_not_denoted : misdrawn.Forall Misdraws := by
  have undrawable : ∀ calls ∈ misdrawn,
      ¬ Drawable (Draft.Proper.empty.after calls).automaton := by decide +kernel
  rw [List.forall_iff_forall_mem]
  intro calls listed
  have proper := Draft.Proper.empty.after calls
  exact ⟨proper.automaton, proper.build, mt denoted_write_iff.mp (undrawable calls listed)⟩

end Dot
end FiniteAutomata
