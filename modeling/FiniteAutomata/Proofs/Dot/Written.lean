import FiniteAutomata.Proofs.Dot.Parsed
import FiniteAutomata.Proofs.Dot.Pieces

namespace FiniteAutomata
namespace Dot

/-!
# Reading what was written

If its quotes end every name and every label where they should, a written
automaton is read line by line, one statement from each.
-/

/-- Names have no quotes in them, and neither names nor labels end in a
backslash. -/
structure Readable (automaton : Automaton) : Prop where
  clear : ∀ name ∈ automaton.stateNames, '"' ∉ name.toList
  closed : ∀ name ∈ automaton.stateNames, Closed name.toList
  labels : ∀ source target, Closed (labelText (automaton.symbolsBetween source target)).toList

/-! ## The statements -/

def accepted (name : String) : Statement :=
  .chain name [] [("shape", "doublecircle")]

/-- The name of the node that is written for the start. -/
def startMarker : String :=
  "__start__"

def entered (name : String) : List Statement :=
  [.chain startMarker [] [("shape", "point")], .chain startMarker [name] []]

def moved (source target : String) (symbols : List Char) : Statement :=
  .chain source [target] [("label", labelText symbols)]

def movedFrom (automaton : Automaton) (source : String) : List Statement :=
  (automaton.targetsFrom source).eraseDups.map fun target =>
    moved source target (automaton.symbolsBetween source target)

/-- The statements that are written for an automaton. -/
def writtenStatements (automaton : Automaton) : List Statement :=
  [.setting "rankdir" "LR", .defaults .node [("shape", "circle")]] ++
    (automaton.acceptingStates.map (fun state => accepted state.name) ++
      (automaton.startState?.toList.flatMap (fun state => entered state.name) ++
        automaton.states.flatMap fun state => movedFrom automaton state.name))

/-- All statements but the first two are nodes and paths. -/
theorem cases_writtenStatements {automaton : Automaton} {statement : Statement}
    (member : statement ∈ writtenStatements automaton) :
    statement = .setting "rankdir" "LR" ∨ statement = .defaults .node [("shape", "circle")] ∨
      ∃ source targets attributes, statement = .chain source targets attributes := by
  rcases List.mem_append.mp member with head | member
  · exact (List.mem_pair.mp head).imp_right Or.inl
  refine Or.inr (Or.inr ?_)
  rcases List.mem_append.mp member with among | member
  · rcases List.mem_map.mp among with ⟨state, _, rfl⟩
    exact ⟨_, _, _, rfl⟩
  rcases List.mem_append.mp member with among | among
  · rcases List.mem_flatMap.mp among with ⟨state, _, inside⟩
    rcases List.mem_pair.mp inside with rfl | rfl
    · exact ⟨_, _, _, rfl⟩
    · exact ⟨_, _, _, rfl⟩
  · rcases List.mem_flatMap.mp among with ⟨state, _, inside⟩
    rcases List.mem_map.mp inside with ⟨target, _, rfl⟩
    exact ⟨_, _, _, rfl⟩

/-! ## Lines -/

/-- The line is read as the statement. -/
def Spells (line : String) (statement : Statement) : Prop :=
  Scans (.outside false) (line.toList ++ ['\n']) statement.tokens (.outside false)

instance (line : String) (statement : Statement) : Decidable (Spells line statement) :=
  inferInstanceAs (Decidable (Scans _ _ _ _))

theorem scans_between {name : String} (clear : '"' ∉ name.toList) (closed : Closed name.toList) :
    Scans (.outside false) (between name.toList) [.id name] (.outside false) := by
  have opening : Scans (.outside false) ['"'] [] (.quoted false []) := by decide
  have inside := scans_quoted closed false
  rw [escaped_eq_self clear] at inside
  have whole := opening.append inside
  rwa [idToken, String.ofList_toList] at whole

theorem spells_acceptingLine {name : String} (clear : '"' ∉ name.toList)
    (closed : Closed name.toList) : Spells (acceptingLine name) (accepted name) := by
  rw [Spells, toList_acceptingLine]
  have lead : Scans (.outside false) "  ".toList [] (.outside false) := by decide
  have tail : Scans (.outside false) " [shape=doublecircle];\n".toList
      (listTokens [("shape", "doublecircle")] ++ [.mark .semicolon]) (.outside false) := by
    decide +kernel
  exact lead.append ((scans_between clear closed).append tail)

theorem spells_startLines {name : String} (clear : '"' ∉ name.toList)
    (closed : Closed name.toList) : List.Forall₂ Spells (startLines name) (entered name) := by
  refine .cons (by decide +kernel) (.cons ?_ .nil)
  rw [Spells, toList_entryLine]
  have lead : Scans (.outside false) "  __start__ -> ".toList [.id startMarker, .arrow]
      (.outside false) := by decide +kernel
  have tail : Scans (.outside false) ";\n".toList [.mark .semicolon] (.outside false) := by decide
  exact lead.append ((scans_between clear closed).append tail)

theorem spells_edgeLine {source target : String} {symbols : List Char}
    (clearSource : '"' ∉ source.toList) (closedSource : Closed source.toList)
    (clearTarget : '"' ∉ target.toList) (closedTarget : Closed target.toList)
    (closed : Closed (labelText symbols).toList) :
    Spells (edgeLine source target symbols) (moved source target symbols) := by
  rw [Spells, toList_edgeLine]
  have lead : Scans (.outside false) "  ".toList [] (.outside false) := by decide
  have middle : Scans (.outside false) " -> ".toList [.arrow] (.outside false) := by decide
  have labelled : Scans (.outside false) " [label=\"".toList [.mark .openBracket, .id "label"]
      (.quoted true []) := by decide +kernel
  have quoted := scans_quoted closed true
  rw [idToken, String.ofList_toList] at quoted
  have tail : Scans (.outside false) "];\n".toList [.mark .closeBracket, .mark .semicolon]
      (.outside false) := by decide
  exact lead.append ((scans_between clearSource closedSource).append
    (middle.append ((scans_between clearTarget closedTarget).append
      ((labelled.append quoted).append tail))))

theorem scans_lines {lines : List String} {list : List Statement}
    (spelled : List.Forall₂ Spells lines list) :
    Scans (.outside false) (lines.flatMap fun line => line.toList ++ ['\n'])
      (list.flatMap Statement.tokens) (.outside false) := by
  induction spelled with
  | nil => exact rfl
  | cons spells _ inductionHypothesis =>
    rw [List.flatMap_cons, List.flatMap_cons]
    exact Scans.append spells inductionHypothesis

theorem forall₂_flatMap {α β γ : Type} {related : β → γ → Prop} {values : List α}
    {first : α → List β} {second : α → List γ}
    (each : ∀ value ∈ values, List.Forall₂ related (first value) (second value)) :
    List.Forall₂ related (values.flatMap first) (values.flatMap second) := by
  induction values with
  | nil => exact .nil
  | cons value rest inductionHypothesis =>
    rw [List.flatMap_cons, List.flatMap_cons]
    exact List.rel_append (each value List.mem_cons_self)
      (inductionHypothesis fun other member => each other (List.mem_cons_of_mem _ member))

/-! ## The text -/

/-- The lines between the first and the last are read as the statements. -/
theorem spells_written {automaton : Automaton} (readable : Readable automaton) :
    List.Forall₂ Spells (bodyLines automaton) (writtenStatements automaton) := by
  have named {state : State} (member : state ∈ automaton.states) :
      '"' ∉ state.name.toList ∧ Closed state.name.toList :=
    ⟨readable.clear _ (Automaton.name_mem_stateNames member),
      readable.closed _ (Automaton.name_mem_stateNames member)⟩
  refine List.rel_append ?_ (List.rel_append ?_ (List.rel_append ?_ ?_))
  · exact .cons (by decide +kernel) (.cons (by decide +kernel) .nil)
  · rw [List.forall₂_map_left_iff, List.forall₂_map_right_iff, List.forall₂_same]
    intro state member
    have held := named (List.mem_filter.mp member).1
    exact spells_acceptingLine held.1 held.2
  · refine forall₂_flatMap fun state starts => ?_
    have held := named (Automaton.mem_states_of_startState? (Option.mem_toList.mp starts))
    exact spells_startLines held.1 held.2
  · refine forall₂_flatMap fun state member => ?_
    rw [edgeLines_eq member, movedFrom, List.forall₂_map_left_iff, List.forall₂_map_right_iff,
      List.forall₂_same]
    intro target reached
    have held := named member
    have known := Automaton.mem_stateNames_of_targetsFrom (List.mem_eraseDups.mp reached)
    exact spells_edgeLine held.1 held.2 (readable.clear _ known) (readable.closed _ known)
      (readable.labels _ _)

theorem tokens?_write {automaton : Automaton} (readable : Readable automaton) :
    tokens? (write automaton) = some (.keyword .digraph :: .id "DFA" :: .mark .openBrace ::
      ((writtenStatements automaton).flatMap Statement.tokens ++ [.mark .closeBrace])) := by
  have head : Scans (.outside false) ("digraph DFA \x7b".toList ++ ['\n'])
      [.keyword .digraph, .id "DFA", .mark .openBrace] (.outside false) := by decide +kernel
  have body := scans_lines (spells_written readable)
  have last : Scans (.outside false) ("\x7d".toList ++ ['\n']) [.mark .closeBrace]
      (.outside false) := by decide
  have whole := head.append (body.append last)
  have lines := toList_write automaton
  rw [writtenLines_eq, List.flatMap_append, List.flatMap_append, List.flatMap_singleton,
    List.flatMap_singleton] at lines
  rw [Scans, ← lines] at whole
  rw [tokens?, whole]
  rfl

/-- A readable automaton is read as what its statements draw. -/
theorem read?_write {automaton : Automaton} (readable : Readable automaton) :
    read? (write automaton) = some (Graph.empty.draw (writtenStatements automaton)) := by
  have allowed : ∀ statement ∈ writtenStatements automaton, statement.Allowed := by
    intro statement member
    rcases cases_writtenStatements member with rfl | rfl | ⟨source, targets, attributes, rfl⟩
    · trivial
    · exact Or.inr (Or.inl rfl)
    · trivial
  rw [read?, tokens?_write readable, Option.bind_some, parse_tokens allowed]
  rfl

end Dot
end FiniteAutomata
