import FiniteAutomata.Command.Show
import FiniteAutomata.Proofs.Specification.RoundTrip

namespace FiniteAutomata

/-!
# Automata told apart by what is shown

The formal definition and the equations of the moves escape nothing.  They
still determine an automaton that was read: a name has no comma, no brace and
no line break, and a symbol is no blank and, in the alphabet, no mark.  So each
part ends at the first comma, brace or line feed behind it, whatever other
characters the names and symbols have.
-/

open Specification (Writable isListMark)
open Specification (unbroken_braced)
open Text (Unbroken append_mark_inj joined joined_inj unbroken_append_iff)

namespace Formal

/-! ## Lists in braces -/

/-- An item that ends where the comma or the brace behind it stands. -/
def Enclosed (item : String) : Prop :=
  item ≠ "" ∧ ',' ∉ item.toList ∧ '\x7d' ∉ item.toList

theorem toList_braced_append (items : List String) (rest : List Char) :
    (braced items).toList ++ rest =
      '\x7b' :: ((joined ", " items).toList ++ '\x7d' :: rest) := by
  rw [Specification.toList_braced, List.cons_append, List.cons_append, List.append_assoc]
  rfl

/-- A list in braces is told from what is behind it. -/
theorem braced_append_inj {first second : List String} {before after : List Char}
    (enclosedFirst : ∀ item ∈ first, Enclosed item)
    (enclosedSecond : ∀ item ∈ second, Enclosed item)
    (same : (braced first).toList ++ before = (braced second).toList ++ after) :
    first = second ∧ before = after := by
  have clear : ∀ {items : List String}, (∀ item ∈ items, Enclosed item) →
      '\x7d' ∉ (joined ", " items).toList := by
    intro items enclosed inside
    rcases Text.mem_of_mem_joined inside with between | ⟨item, among, within⟩
    · exact absurd between (by decide)
    · exact (enclosed item among).2.2 within
  rw [toList_braced_append, toList_braced_append, List.cons.injEq] at same
  rcases append_mark_inj (clear enclosedFirst) (clear enclosedSecond) same.2 with ⟨listed, behind⟩
  have comma : ", ".toList = ',' :: [' '] := rfl
  refine ⟨joined_inj comma (by decide) ?_ ?_ (String.toList_inj.mp listed), behind⟩
  · exact fun item among => ⟨(enclosedFirst item among).1, (enclosedFirst item among).2.1⟩
  · exact fun item among => ⟨(enclosedSecond item among).1, (enclosedSecond item among).2.1⟩

/-! ## The parts of an automaton that was read -/

section Parts

variable {automaton : Automaton}

theorem enclosed_stateNames (writable : Writable automaton) :
    ∀ name ∈ automaton.stateNames, Enclosed name := fun name member =>
  have fits := writable.fits name member
  ⟨fits.nonempty, fits.comma, fits.closing⟩

theorem acceptingNames_subset (automaton : Automaton) :
    automaton.acceptingStates.map State.name ⊆ automaton.stateNames :=
  List.map_subset State.name (List.filter_subset_self automaton.states)

theorem enclosed_alphabet (unmarked : ∀ symbol ∈ automaton.alphabet, isListMark symbol = false) :
    ∀ item ∈ automaton.alphabet.map String.singleton, Enclosed item := by
  have clear : ∀ {symbol mark : Char}, symbol ∈ automaton.alphabet → isListMark mark = true →
      mark ∉ (String.singleton symbol).toList := by
    intro symbol mark member marks inside
    rw [String.toList_singleton, List.mem_singleton] at inside
    exact absurd marks (by rw [inside, unmarked symbol member]; decide)
  intro item member
  rcases List.mem_map.mp member with ⟨symbol, held, rfl⟩
  exact ⟨by simp, clear held (by decide), clear held (by decide)⟩

/-- No start state is written as nothing, and no name is. -/
theorem startName?_eq (automaton : Automaton) : automaton.startState?.map State.name =
    if start automaton = "" then none else some (start automaton) := by
  rw [start]
  cases found : automaton.startState? with
  | none => rfl
  | some state =>
    have held := Automaton.mem_states_of_startState? found
    dsimp only
    rw [if_neg (automaton.sound.names_nonempty state held)]
    rfl

theorem comma_notMem_start (writable : Writable automaton) : ',' ∉ (start automaton).toList := by
  rw [start]
  cases found : automaton.startState? with
  | none => exact List.not_mem_nil
  | some state =>
    have held := Automaton.mem_states_of_startState? found
    exact (writable.fits _ (Automaton.name_mem_stateNames held)).comma

theorem toList_tuple (automaton : Automaton) : (tuple automaton).toList =
    "A = <Q = ".toList ++ ((states automaton).toList ++ (", Σ = ".toList ++
      ((alphabet automaton).toList ++ (", ".toList ++ ((start automaton).toList ++
        ',' :: (" δ, F = ".toList ++ ((accepting automaton).toList ++ ['>']))))))) := by
  delta tuple
  simp only [String.toList_append, List.append_assoc]
  rfl

end Parts

/-! ## Each part stands on one line -/

section Lines

variable {automaton : Automaton}

theorem unbroken_start (writable : Writable automaton) : Unbroken (start automaton).toList := by
  rw [start]
  cases found : automaton.startState? with
  | none => exact fun _ => False.elim ∘ List.not_mem_nil
  | some state =>
    have held := Automaton.mem_states_of_startState? found
    exact writable.unbroken _ (Automaton.name_mem_stateNames held)

theorem unbroken_tuple (writable : Writable automaton)
    (unmarked : ∀ symbol ∈ automaton.alphabet, isListMark symbol = false) :
    Unbroken (tuple automaton).toList := by
  have names := unbroken_braced writable.unbroken
  have accepting := unbroken_braced fun name among =>
    writable.unbroken name (acceptingNames_subset automaton among)
  have symbols : Unbroken (alphabet automaton).toList := by
    apply unbroken_braced
    intro item member c inside
    rcases List.mem_map.mp member with ⟨symbol, held, rfl⟩
    rw [String.toList_singleton, List.mem_singleton] at inside
    have parts := unmarked symbol held
    rw [isListMark, Bool.or_eq_false_iff] at parts
    rw [inside]
    exact Text.isLineBreak_eq_false parts.2
  have behindStart : Unbroken (',' :: " δ, F = ".toList) := by decide
  rw [toList_tuple, ← List.cons_append]
  simp only [unbroken_append_iff]
  exact ⟨by decide, names, by decide, symbols, by decide, unbroken_start writable, behindStart,
    accepting, by decide⟩

theorem unbroken_equation (writable : Writable automaton) {move : String × Char × String}
    (member : move ∈ automaton.transitions) : Unbroken (equation move).toList := by
  have names := Automaton.names_of_mem_transitions member
  have symbol : Unbroken (String.singleton move.2.1).toList := by
    intro c inside
    rw [String.toList_singleton, List.mem_singleton] at inside
    rw [inside]
    exact Text.isLineBreak_eq_false (writable.solid move member)
  simp only [equation, String.toList_append, unbroken_append_iff]
  exact ⟨⟨⟨⟨⟨by decide, writable.unbroken _ names.1⟩, by decide⟩, symbol⟩, by decide⟩,
    writable.unbroken _ names.2⟩

end Lines

/-! ## What is shown determines the parts -/

variable {first second : Automaton}

/-- The formal definition determines everything but the moves. -/
theorem tuple_inj (writableFirst : Writable first) (writableSecond : Writable second)
    (unmarkedFirst : ∀ symbol ∈ first.alphabet, isListMark symbol = false)
    (unmarkedSecond : ∀ symbol ∈ second.alphabet, isListMark symbol = false)
    (same : tuple first = tuple second) :
    first.stateNames = second.stateNames ∧ first.alphabet = second.alphabet ∧
      start first = start second ∧
        first.acceptingStates.map State.name = second.acceptingStates.map State.name := by
  have namesFirst := enclosed_stateNames writableFirst
  have namesSecond := enclosed_stateNames writableSecond
  replace same := congrArg String.toList same
  rw [toList_tuple, toList_tuple] at same
  rcases braced_append_inj namesFirst namesSecond (List.append_cancel_left same) with
    ⟨names, behindNames⟩
  rcases braced_append_inj (enclosed_alphabet unmarkedFirst) (enclosed_alphabet unmarkedSecond)
    (List.append_cancel_left behindNames) with ⟨symbols, behindSymbols⟩
  rcases append_mark_inj (comma_notMem_start writableFirst) (comma_notMem_start writableSecond)
    (List.append_cancel_left behindSymbols) with ⟨starts, behindStart⟩
  rcases braced_append_inj (fun name among => namesFirst name (acceptingNames_subset first among))
    (fun name among => namesSecond name (acceptingNames_subset second among))
    (List.append_cancel_left behindStart) with ⟨accepting, _⟩
  have apart : Function.Injective String.singleton := fun _ _ same => by
    simpa using congrArg String.toList same
  exact ⟨names, List.map_injective_iff.mpr apart symbols, String.toList_inj.mp starts, accepting⟩

theorem toList_equation (move : String × Char × String) : (equation move).toList =
    "δ(".toList ++ (move.1.toList ++ ',' :: ' ' :: move.2.1 :: (") = ".toList ++
      move.2.2.toList)) := by
  simp [equation]

/-- An equation determines its move if the source has no comma. -/
theorem equation_inj {move other : String × Char × String} (clearMove : ',' ∉ move.1.toList)
    (clearOther : ',' ∉ other.1.toList) (same : equation move = equation other) :
    move = other := by
  replace same := congrArg String.toList same
  rw [toList_equation, toList_equation] at same
  rcases append_mark_inj clearMove clearOther (List.append_cancel_left same) with ⟨source, behind⟩
  rcases List.cons.inj (List.cons.inj behind).2 with ⟨symbol, rest⟩
  have target := String.toList_inj.mp (List.append_cancel_left rest)
  exact Prod.ext (String.toList_inj.mp source) (Prod.ext symbol target)

/-- Equations of moves are lines, none of them empty, so a list of them is told
apart at its line feeds. -/
theorem transitions_inj (writableFirst : Writable first) (writableSecond : Writable second)
    (same : transitions first = transitions second) : first.transitions = second.transitions := by
  have lines : ∀ {automaton : Automaton}, Writable automaton →
      ∀ line ∈ automaton.transitions.map equation, line ≠ "" ∧ '\n' ∉ line.toList := by
    intro automaton writable line member
    rcases List.mem_map.mp member with ⟨move, held, rfl⟩
    constructor
    · intro empty
      have nothing := congrArg String.toList empty
      rw [toList_equation] at nothing
      cases nothing
    · exact fun inside => absurd (unbroken_equation writable held '\n' inside) (by decide)
  have feed : "\n".toList = '\n' :: [] := rfl
  have equations := joined_inj feed List.not_mem_nil (lines writableFirst) (lines writableSecond)
    same
  apply List.ext_getElem (by simpa using congrArg List.length equations)
  intro index firstBound secondBound
  have sourceFirst := Automaton.names_of_mem_transitions (List.getElem_mem firstBound)
  have sourceSecond := Automaton.names_of_mem_transitions (List.getElem_mem secondBound)
  apply equation_inj (writableFirst.fits _ sourceFirst.1).comma
    (writableSecond.fits _ sourceSecond.1).comma
  rw [← List.getElem_map equation (h := by simpa using firstBound),
    ← List.getElem_map equation (h := by simpa using secondBound)]
  simp only [equations]

/-! ## What is shown determines the automaton -/

theorem name_mem_acceptingNames_iff {automaton : Automaton} {state : State}
    (member : state ∈ automaton.states) :
    state.name ∈ automaton.acceptingStates.map State.name ↔ state.accepting = true := by
  constructor
  · intro named
    rcases List.mem_map.mp named with ⟨other, held, same⟩
    rcases List.mem_filter.mp held with ⟨otherMember, accepting⟩
    rwa [← Automaton.eq_of_name_eq otherMember member same]
  · exact fun accepting => List.mem_map_of_mem (List.mem_filter.mpr ⟨member, accepting⟩)

theorem eq_of_shown (writableFirst : Writable first) (writableSecond : Writable second)
    (unmarkedFirst : ∀ symbol ∈ first.alphabet, isListMark symbol = false)
    (unmarkedSecond : ∀ symbol ∈ second.alphabet, isListMark symbol = false)
    (sameTuple : tuple first = tuple second)
    (sameTransitions : transitions first = transitions second) : first = second := by
  rcases tuple_inj writableFirst writableSecond unmarkedFirst unmarkedSecond sameTuple with
    ⟨names, symbols, starts, accepting⟩
  have moves := transitions_inj writableFirst writableSecond sameTransitions
  have start : first.start = second.start := by
    rw [Specification.start_eq first, Specification.start_eq second, startName?_eq, startName?_eq,
      starts, names]
  refine Automaton.eq_of_named names symbols start ?_
  intro state member other otherMember same
  constructor
  · have flags := name_mem_acceptingNames_iff member
    rw [accepting, same, name_mem_acceptingNames_iff otherMember] at flags
    exact Bool.eq_iff_iff.mpr flags.symm
  · have own := Automaton.filter_transitions member
    rw [moves, same, Automaton.filter_transitions otherMember] at own
    have behind := congrArg (List.map Prod.snd) own
    simp only [List.map_map, Function.comp_def, List.map_id'] at behind
    exact behind.symm

end Formal

namespace Command

open Specification (read unmarked_of_read writable_of_read)

/-- The formal definition stands on one line, so it is told from the equations
behind it. -/
theorem sectionsText_usual_inj {first second : Automaton} (writableFirst : Writable first)
    (writableSecond : Writable second)
    (unmarkedFirst : ∀ symbol ∈ first.alphabet, isListMark symbol = false)
    (unmarkedSecond : ∀ symbol ∈ second.alphabet, isListMark symbol = false)
    (same : sectionsText first usualSections = sectionsText second usualSections) :
    Formal.tuple first = Formal.tuple second ∧
      Formal.transitions first = Formal.transitions second := by
  have written : ∀ automaton, (sectionsText automaton usualSections).toList =
      (Formal.tuple automaton).toList ++
        '\n' :: ((Formal.transitions automaton).toList ++ ['\n']) := by
    intro automaton
    have parts : sectionsText automaton usualSections =
        Report.line (Formal.tuple automaton) ++ "" ++ Report.line (Formal.transitions automaton) :=
      rfl
    simp only [parts, Report.line, String.toList_append, String.append_empty, List.append_assoc]
    rfl
  have oneLine : ∀ {automaton : Automaton}, Writable automaton →
      (∀ symbol ∈ automaton.alphabet, isListMark symbol = false) →
        '\n' ∉ (Formal.tuple automaton).toList := fun writable unmarked inside =>
    absurd (Formal.unbroken_tuple writable unmarked '\n' inside) (by decide)
  replace same := congrArg String.toList same
  rw [written, written] at same
  rcases append_mark_inj (oneLine writableFirst unmarkedFirst)
    (oneLine writableSecond unmarkedSecond) same with ⟨tuples, behind⟩
  exact ⟨String.toList_inj.mp tuples, String.toList_inj.mp (List.append_cancel_right behind)⟩

/-- Two automata that were read are shown alike only if they are equal, in the
order of the moves of a state as well: the formal definition and the equations
tell them apart, and so do the sections that are shown if none is chosen. -/
theorem eq_of_showSections_eq {truncateFirst truncateSecond : Bool}
    {textFirst textSecond : String} {first second : Automaton}
    (readFirst : (read truncateFirst textFirst).result = .ok first)
    (readSecond : (read truncateSecond textSecond).result = .ok second) :
    (Formal.tuple first = Formal.tuple second →
        Formal.transitions first = Formal.transitions second → first = second) ∧
      (showSections first [] = showSections second [] → first = second) := by
  have writableFirst := writable_of_read readFirst
  have writableSecond := writable_of_read readSecond
  have unmarkedFirst := unmarked_of_read readFirst
  have unmarkedSecond := unmarked_of_read readSecond
  have apart := Formal.eq_of_shown writableFirst writableSecond unmarkedFirst unmarkedSecond
  refine ⟨apart, fun same => ?_⟩
  have output : sectionsText first usualSections = sectionsText second usualSections :=
    congrArg Report.output same
  rcases sectionsText_usual_inj writableFirst writableSecond unmarkedFirst unmarkedSecond output
    with ⟨sameTuple, sameTransitions⟩
  exact apart sameTuple sameTransitions

/-- Names and symbols made of the characters around them, in two orders of the
lines, the second with a symbol that is cut. -/
def strangeLines : String :=
  "alphabet=\x7b)(\x7d\nstate=\x7bδ = <, >\x7d\nstart_state=>\nF=\x7bδ = <\x7d\n(>, ))->δ = <\n" ++
    "(δ = <, ()->>\n"

def strangeLinesCut : String :=
  "state=\x7bδ = <, >\x7d\n(δ = <, (()->>\n(>,))->δ = <\nF=δ = <\nalphabet=), (\nstart_state=>"

theorem eq_of_showSections_eq_strange : ∃ first second,
    (read false strangeLines).result = .ok first ∧
      (read true strangeLinesCut).result = .ok second ∧
        Formal.tuple first = Formal.tuple second ∧
          Formal.transitions first = Formal.transitions second ∧ first = second := by
  let shown (automaton : Automaton) : String × String :=
    (Formal.tuple automaton, Formal.transitions automaton)
  have computedFirst : (read false strangeLines).result.map shown =
      .ok ("A = <Q = \x7bδ = <, >\x7d, Σ = \x7b), (\x7d, >, δ, F = \x7bδ = <\x7d>",
        "δ(δ = <, () = >\nδ(>, )) = δ = <") := by
    decide +kernel
  have computedSecond : (read true strangeLinesCut).result.map shown =
      (read false strangeLines).result.map shown := by
    decide +kernel
  rcases Draft.exists_of_map_eq_ok computedFirst with ⟨first, readFirst, shownFirst⟩
  rcases Draft.exists_of_map_eq_ok (computedSecond.trans computedFirst) with
    ⟨second, readSecond, shownSecond⟩
  rcases Prod.mk.inj (shownFirst.trans shownSecond.symm) with ⟨tuples, transitions⟩
  exact ⟨first, second, readFirst, readSecond, tuples, transitions,
    (eq_of_showSections_eq readFirst readSecond).1 tuples transitions⟩

end Command
end FiniteAutomata
