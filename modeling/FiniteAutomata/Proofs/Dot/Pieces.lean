import FiniteAutomata.Proofs.Dot.Grouped
import FiniteAutomata.Proofs.Dot.Scanned
import FiniteAutomata.Proofs.Text.Pieces

namespace FiniteAutomata
namespace Dot

/-!
# The pieces of written lines

Each line of a written automaton is put together of fixed texts without quotes,
of names between quotes as they are, and of labels between quotes with their
quotes escaped.
-/

open Text (joined)

/-- The text that a label stands for. -/
def labelText (symbols : List Char) : String :=
  joined "," (symbols.map String.singleton)

theorem toList_labelText_cons (first : Char) (others : List Char) :
    (labelText (first :: others)).toList = first :: others.flatMap fun symbol => [',', symbol] := by
  rw [labelText, List.map_cons, Text.toList_joined_cons, String.toList_singleton,
    List.flatMap_map]
  refine congrArg (first :: ·) (List.flatMap_congr fun symbol _ => ?_)
  rw [String.toList_singleton]
  rfl

/-- A label is its text with the quotes escaped. -/
theorem toList_label (symbols : List Char) :
    (label symbols).toList = escaped (labelText symbols).toList := by
  cases symbols with
  | nil => rfl
  | cons first others =>
    rw [toList_labelText_cons, label, List.map_cons, Text.toList_joined_cons, List.flatMap_map,
      escaped, List.flatMap_cons, List.flatMap_assoc]
    refine congrArg (_ ++ ·) (List.flatMap_congr fun symbol _ => ?_)
    rw [List.flatMap_cons, List.flatMap_singleton]
    rfl

/-- A quote behind a label ends it exactly if its last symbol is no backslash. -/
theorem closed_labelText_iff {symbols : List Char} :
    Closed (labelText symbols).toList ↔ symbols.getLast? ≠ some '\\' := by
  cases symbols with
  | nil => simp [labelText, joined, Closed]
  | cons first others =>
    rw [toList_labelText_cons, Closed]
    rcases List.eq_nil_or_concat' others with rfl | ⟨front, last, rfl⟩
    · rfl
    · have whole : (first :: (front ++ [last]).flatMap fun symbol => [',', symbol]) =
          (first :: (front.flatMap fun symbol => [',', symbol]) ++ [',']) ++ [last] := by
        simp
      rw [whole, List.getLast?_concat, ← List.cons_append, List.getLast?_concat]

/-! ## Lines -/

/-- A text between quotes. -/
def between (text : List Char) : List Char :=
  ['"'] ++ (text ++ ['"'])

theorem toList_acceptingLine (name : String) : (acceptingLine name).toList ++ ['\n'] =
    "  ".toList ++ (between name.toList ++ " [shape=doublecircle];\n".toList) := by
  simp [acceptingLine, between]

theorem toList_entryLine (name : String) :
    ("  __start__ -> \"" ++ name ++ "\";").toList ++ ['\n'] =
      "  __start__ -> ".toList ++ (between name.toList ++ ";\n".toList) := by
  simp [between]

theorem toList_edgeLine (source target : String) (symbols : List Char) :
    (edgeLine source target symbols).toList ++ ['\n'] =
      "  ".toList ++ (between source.toList ++ (" -> ".toList ++ (between target.toList ++
        ((" [label=\"".toList ++ (escaped (labelText symbols).toList ++ ['"'])) ++
          "];\n".toList)))) := by
  simp [edgeLine, between, toList_label]

/-- A written automaton is its lines with a line feed each. -/
theorem toList_write (automaton : Automaton) : (write automaton).toList =
    (writtenLines automaton).flatMap fun line => line.toList ++ ['\n'] :=
  Text.toList_joined_feed _ _

/-- The lines with the edges of a state, in the order in which its targets are
reached first. -/
theorem edgeLines_eq {automaton : Automaton} {state : State} (member : state ∈ automaton.states) :
    edgeLines automaton state = (automaton.targetsFrom state.name).eraseDups.map fun target =>
      edgeLine state.name target (automaton.symbolsBetween state.name target) := by
  rw [edgeLines, Automaton.grouped_eq member, List.map_map]
  rfl

/-- The lines between the braces. -/
def bodyLines (automaton : Automaton) : List String :=
  ["  rankdir=LR;", "  node [shape=circle];"] ++
    (automaton.acceptingStates.map (fun state => acceptingLine state.name) ++
      (automaton.startState?.toList.flatMap (fun state => startLines state.name) ++
        automaton.states.flatMap (edgeLines automaton)))

theorem writtenLines_eq (automaton : Automaton) :
    writtenLines automaton = ["digraph DFA \x7b"] ++ (bodyLines automaton ++ ["\x7d"]) := by
  unfold writtenLines bodyLines
  cases automaton.startState? <;> simp

/-- What holds of the fixed lines, of the lines of states and of the lines of
edges holds of all lines. -/
theorem forall_writtenLines {automaton : Automaton} {fits : String → Prop}
    (fixed : ∀ line ∈ ["digraph DFA \x7b", "  rankdir=LR;", "  node [shape=circle];", "\x7d"],
      fits line)
    (accepting : ∀ state ∈ automaton.states, fits (acceptingLine state.name))
    (start : ∀ state ∈ automaton.states, ∀ line ∈ startLines state.name, fits line)
    (edges : ∀ state ∈ automaton.states, ∀ target ∈ automaton.targetsFrom state.name,
      fits (edgeLine state.name target (automaton.symbolsBetween state.name target))) :
    ∀ line ∈ writtenLines automaton, fits line := by
  intro line member
  rw [writtenLines_eq] at member
  rcases List.mem_append.mp member with first | member
  · rcases List.mem_singleton.mp first with rfl
    exact fixed _ (by simp)
  rcases List.mem_append.mp member with body | last
  · rcases List.mem_append.mp body with head | body
    · exact fixed line (by rcases List.mem_pair.mp head with rfl | rfl <;> simp)
    rcases List.mem_append.mp body with among | body
    · rcases List.mem_map.mp among with ⟨state, flagged, rfl⟩
      exact accepting state (List.mem_filter.mp flagged).1
    rcases List.mem_append.mp body with among | among
    · rcases List.mem_flatMap.mp among with ⟨state, starts, inside⟩
      have held := Automaton.mem_states_of_startState? (Option.mem_toList.mp starts)
      exact start state held line inside
    · rcases List.mem_flatMap.mp among with ⟨state, held, inside⟩
      rw [edgeLines_eq held] at inside
      rcases List.mem_map.mp inside with ⟨target, reached, rfl⟩
      exact edges state held target (List.mem_eraseDups.mp reached)
  · rcases List.mem_singleton.mp last with rfl
    exact fixed _ (by simp)

end Dot
end FiniteAutomata
