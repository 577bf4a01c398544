import FiniteAutomata.Proofs.Specification.Heads

namespace FiniteAutomata
namespace Specification

/-!
# The meaning of a specification

The automaton of a specification, said of its stripped lines alone and without
a draft.  States and symbols come from all lines that declare or list them, the
start from the last line that names one, and an accepting state from a line
that lists it behind its declaration.  A move is a transition if some line
denotes it, and the moves of a state stand in the order of the first lines that
denote them.
-/

open Text (after?)

/-- The texts behind a beginning, by lines. -/
def valuesOf (head : List Char) (lines : List (List Char)) : List (List Char) :=
  lines.filterMap (after? head)

/-- The lines that begin with an opening parenthesis. -/
def moveLines (lines : List (List Char)) : List (List Char) :=
  lines.filter fun line => ['('] <+: line

theorem flatMap_part {α : Type} {head : List Char} {part read : List Char → List α}
    (behind : ∀ line, part line = ((after? head line).map read).getD [])
    (lines : List (List Char)) : lines.flatMap part = (valuesOf head lines).flatMap read := by
  induction lines with
  | nil => rfl
  | cons line rest inductionHypothesis =>
    rw [valuesOf] at inductionHypothesis ⊢
    rw [List.flatMap_cons, inductionHypothesis, behind]
    cases found : after? head line with
    | none => simp [found]
    | some value => simp [found]

theorem declaredNames_ofText (lines : List (List Char)) :
    declaredNames (lines.map Line.ofText) = (valuesOf statesHead lines).flatMap names := by
  rw [declaredNames, List.flatMap_map]
  exact flatMap_part declared_ofText lines

theorem listedSymbols_ofText (lines : List (List Char)) :
    listedSymbols (lines.map Line.ofText) = (valuesOf alphabetHead lines).flatMap symbols := by
  rw [listedSymbols, List.flatMap_map]
  exact flatMap_part listed_ofText lines

theorem lastStart?_ofText (lines : List (List Char)) :
    lastStart? (lines.map Line.ofText) =
      (valuesOf startHead lines).getLast?.map fun value => String.ofList (Text.trimmed value) := by
  have named : (fun line => (Line.ofText line).startName?) = fun line =>
      (after? startHead line).map fun value => String.ofList (Text.trimmed value) :=
    funext startName?_ofText
  rw [lastStart?, List.filterMap_map, ← List.getLast?_map, valuesOf, List.map_filterMap, ← named]
  rfl

theorem denotes_functional {line : List Char} {first second : String × Char × String}
    (denotesFirst : Denotes line first) (denotesSecond : Denotes line second) : first = second := by
  have readFirst := readMove_of_denotes denotesFirst false
  have readSecond := readMove_of_denotes denotesSecond false
  exact Except.ok.inj (readFirst.symm.trans readSecond)

/-- The transitions of a state are its described moves, each where it came
first. -/
theorem Recorded.filter_transitions {truncate : Bool} {lines : List Line} {draft : Draft}
    (recorded : Recorded truncate lines draft) (name : String) :
    recorded.proper.automaton.transitions.filter (fun move => move.1 = name) =
      ((describedMoves truncate lines).filter fun move => move.1 = name).eraseDups := by
  by_cases known : name ∈ draft.stateNames
  · rcases List.mem_map.mp known with ⟨state, member, rfl⟩
    have held : state ∈ recorded.proper.automaton.states := member
    have injective : Function.Injective fun move : Char × String => (state.name, move) :=
      fun _ _ same => (Prod.mk.inj same).2
    rw [Automaton.filter_transitions held, Draft.Proper.stateNames_automaton,
      recorded.moves state member, ← eraseDups_map injective, movesFrom, List.map_map]
    congr 1
    conv_rhs => rw [← List.map_id (List.filter _ _)]
    apply List.map_congr_left
    intro move described
    rw [← of_decide_eq_true (List.mem_filter.mp described).2]
    rfl
  · have none : ∀ moves : List (String × Char × String),
        (∀ move ∈ moves, move.1 ∈ draft.stateNames) →
          moves.filter (fun move => move.1 = name) = [] := by
      intro moves sources
      rw [List.filter_eq_nil_iff]
      intro move member same
      exact known (of_decide_eq_true same ▸ sources move member)
    have sources : ∀ move ∈ recorded.proper.automaton.transitions, move.1 ∈ draft.stateNames :=
      fun move member => (Automaton.names_of_mem_transitions member).1
    rw [none _ sources, none _ fun move member => (recorded.moves_known move member).1]
    rfl

/-! ## Reading finds the meaning -/

end Specification
end FiniteAutomata
