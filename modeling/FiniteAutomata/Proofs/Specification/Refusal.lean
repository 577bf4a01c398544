import FiniteAutomata.Proofs.Automaton.Refused
import FiniteAutomata.Proofs.Specification.Malformed
import FiniteAutomata.Proofs.Specification.Meaning

namespace FiniteAutomata
namespace Specification

/-!
# Refused specifications

A specification is refused for its first line that breaks a rule relative to
the lines above it, and for nothing else.  The rules are said here of stripped
lines alone, without a draft; the fault says which rule is broken, and its
place is that line, with all lines above it counted.  Lines that list symbols
or accepting states and lines that begin in no known way break no rule, and
when all lines have been passed nothing is left to refuse.
-/

open Text (trimmed)

/-! ## The rules -/

/-- The names that lines declare. -/
def declaredBy (lines : List (List Char)) : List String :=
  (valuesOf statesHead lines).flatMap names

/-- A line breaks a rule behind the lines above it.  Of a list of names only
the first unfit one counts, and of a move what is looked at first. -/
inductive Breaks (above : List (List Char)) : List Char → Fault → Prop
  | name {value : List Char} {fit rest : List String} {name : String} {fault : Fault}
      (listed : names value = fit ++ name :: rest) (passed : ∀ other ∈ fit, NameFits other)
      (distinct : fit.Nodup) (fresh : ∀ other ∈ fit, other ∉ declaredBy above)
      (unfit : Draft.Unfit (declaredBy above ++ fit) name fault) :
      Breaks above (statesHead ++ value) fault
  | start {value : List Char} (unknown : String.ofList (trimmed value) ∉ declaredBy above) :
      Breaks above (startHead ++ value) (.missingState (String.ofList (trimmed value)))
  | form {rest : List Char} {malformation : Malformation}
      (foreign : ∀ move, ¬ Denotes ('(' :: rest) move)
      (malformed : Malformed ('(' :: rest) malformation) :
      Breaks above ('(' :: rest) (.malformed malformation)
  | source {line : List Char} {move : String × Char × String} (denoted : Denotes line move)
      (unknown : move.1 ∉ declaredBy above) : Breaks above line (.missingState move.1)
  | target {line : List Char} {move : String × Char × String} (denoted : Denotes line move)
      (sourceKnown : move.1 ∈ declaredBy above) (unknown : move.2.2 ∉ declaredBy above) :
      Breaks above line (.missingTarget move.2.2)
  | conflict {line earlier : List Char} {move other : String × Char × String}
      (denoted : Denotes line move) (sourceKnown : move.1 ∈ declaredBy above)
      (targetKnown : move.2.2 ∈ declaredBy above) (among : earlier ∈ above)
      (denotedAbove : Denotes earlier other) (source : other.1 = move.1)
      (symbol : other.2.1 = move.2.1) (differs : other.2.2 ≠ move.2.2) :
      Breaks above line
        (.conflictingMove move.1 (String.singleton move.2.1) other.2.2 move.2.2)

/-- No line breaks a rule behind the lines above it, of which some came
before. -/
def Faultless (earlier lines : List (List Char)) : Prop :=
  ∀ above line below fault, lines = above ++ line :: below → ¬ Breaks (earlier ++ above) line fault

theorem faultless_nil (earlier : List (List Char)) : Faultless earlier [] := by
  intro above line below fault whole
  exact absurd whole (by simp)

theorem faultless_cons_iff {earlier rest : List (List Char)} {line : List Char} :
    Faultless earlier (line :: rest) ↔
      (∀ fault, ¬ Breaks earlier line fault) ∧ Faultless (earlier ++ [line]) rest := by
  constructor
  · intro faultless
    constructor
    · intro fault breaks
      rw [← List.append_nil earlier] at breaks
      exact faultless [] line rest fault rfl breaks
    · intro above other below fault whole breaks
      rw [List.append_assoc, List.singleton_append] at breaks
      exact faultless (line :: above) other below fault (by rw [whole, List.cons_append]) breaks
  · rintro ⟨first, later⟩ above other below fault whole breaks
    cases above with
    | nil =>
      rcases List.cons.inj whole with ⟨rfl, rfl⟩
      rw [List.append_nil] at breaks
      exact first fault breaks
    | cons head front =>
      rcases List.cons.inj whole with ⟨rfl, rfl⟩
      rw [← List.singleton_append, ← List.append_assoc] at breaks
      exact later front other below fault rfl breaks

/-! ## A line of names -/

theorem addStates_append (draft : Draft) (front back : List String) :
    addStates draft (front ++ back) =
      match addStates draft front with
      | .ok next => addStates next back
      | .error fault => .error fault := by
  induction front generalizing draft with
  | nil => rfl
  | cons name rest inductionHypothesis =>
    rw [List.cons_append, addStates, addStates]
    cases draft.addState name false with
    | ok next => exact inductionHypothesis next
    | error fault => rfl

/-- Names are refused for the first of them that does not fit behind those of
the draft and those in front of it. -/
theorem addStates_eq_error_iff {draft : Draft} {given : List String} {fault : Fault} :
    addStates draft given = .error fault ↔ ∃ fit name rest, given = fit ++ name :: rest ∧
      ((∀ other ∈ fit, NameFits other) ∧ fit.Nodup ∧ ∀ other ∈ fit, other ∉ draft.stateNames) ∧
        Draft.Unfit (draft.stateNames ++ fit) name fault := by
  constructor
  · intro refused
    induction given generalizing draft with
    | nil => cases refused
    | cons name rest inductionHypothesis =>
      rw [addStates] at refused
      split at refused
      · rename_i next added
        rcases Draft.addState_eq_ok_iff.mp added with ⟨fits, new, rfl⟩
        rcases inductionHypothesis refused with
          ⟨fit, bad, later, rfl, ⟨passed, distinct, fresh⟩, unfit⟩
        simp only [Draft.stateNames, List.map_append, List.map_cons, List.map_nil, List.mem_append,
          List.mem_singleton, not_or] at fresh unfit
        refine ⟨name :: fit, bad, later, rfl, ⟨?_, ?_, ?_⟩, ?_⟩
        · exact List.forall_mem_cons.mpr ⟨fits, passed⟩
        · exact List.nodup_cons.mpr ⟨fun member => (fresh name member).2 rfl, distinct⟩
        · exact List.forall_mem_cons.mpr ⟨new, fun other member => (fresh other member).1⟩
        · simpa [Draft.stateNames] using unfit
      · rename_i failure failed
        cases refused
        refine ⟨[], name, rest, rfl, by simp, ?_⟩
        rw [List.append_nil]
        exact Draft.addState_eq_error_iff.mp failed
  · rintro ⟨fit, name, rest, rfl, ⟨passed, distinct, fresh⟩, unfit⟩
    have before := addStates_eq_ok_iff.mpr ⟨passed, distinct, fresh, rfl⟩
    rw [addStates_append, before]
    dsimp only
    have known : ({ draft with states := draft.states ++ freshStates fit } : Draft).stateNames =
        draft.stateNames ++ fit := by
      simp [Draft.stateNames, map_name_freshStates]
    rw [addStates, Draft.addState_eq_error_iff.mpr (known.symm ▸ unfit)]

/-! ## A line against the lines above it -/

/-- The described moves are those that some line denotes. -/
theorem mem_describedMoves_iff {lines : List (List Char)} {move : String × Char × String} :
    move ∈ describedMoves false (lines.map Line.ofText) ↔ ∃ line ∈ lines, Denotes line move := by
  rw [describedMoves, List.filterMap_map, List.mem_filterMap]
  refine exists_congr fun line => and_congr_right fun _ => ?_
  rw [Function.comp_apply, move?_ofText]
  constructor
  · intro found
    split at found
    · rename_i opens
      rcases opens with ⟨rest, rfl⟩
      cases read : readMove false (['('] ++ rest) with
      | error malformation =>
        rw [read] at found
        cases found
      | ok given =>
        rw [read] at found
        rcases Option.some.inj found with rfl
        exact (readMove_eq_ok_iff_denotes ⟨rest, rfl⟩).mp read
    · cases found
  · intro denoted
    rcases Spells.opens denoted with ⟨rest, rfl⟩
    rw [if_pos (by simp), readMove_of_denotes denoted]
    rfl

namespace Recorded

variable {above : List (List Char)} {draft : Draft} {fault : Fault}

theorem names_eq_declaredBy (recorded : Recorded false (above.map Line.ofText) draft) :
    draft.stateNames = declaredBy above :=
  recorded.names.trans (declaredNames_ofText above)

/-- A move is opposed by the lines above that denote one with its source and
symbol but with another target. -/
theorem opposed_iff (recorded : Recorded false (above.map Line.ofText) draft)
    {source target : String} {symbol : Char} (sourceKnown : source ∈ draft.stateNames)
    (targetKnown : target ∈ draft.stateNames) {name : String} :
    (∃ existing, draft.Opposed source symbol target existing ∧ draft.nameAt existing = name) ↔
      name ≠ target ∧ ∃ line ∈ above, Denotes line (source, symbol, name) := by
  have distinct := recorded.proper.names_distinct
  rcases Draft.exists_state sourceKnown with ⟨state, member, rfl, _⟩
  rw [← mem_describedMoves_iff, ← recorded.mem_named_iff member]
  have named : ∀ index, draft.nameAt index = draft.stateNames.getD index "" :=
    recorded.proper.automaton.nameAt_eq_getD
  constructor
  · rintro ⟨existing, opposed, rfl⟩
    rcases opposed.leads with ⟨other, otherMember, same, leads⟩
    rcases Draft.eq_of_name_eq distinct otherMember member same with rfl
    have held := State.mem_moves_of_target? leads
    have inside := recorded.proper.targets_bound_names member _ held
    constructor
    · rintro rfl
      apply opposed.differs
      rw [named, List.getD_eq_getElem _ _ inside, distinct.idxOf_getElem]
    · rw [named]
      exact List.mem_map_of_mem held
  · rintro ⟨differs, described⟩
    rcases List.mem_map.mp described with ⟨⟨used, existing⟩, held, same⟩
    rcases Prod.mk.inj same with ⟨rfl, rfl⟩
    have symbols := recorded.proper.sound.symbols_distinct state member
    refine ⟨existing, ⟨sourceKnown, targetKnown, ⟨state, member, rfl, ?_⟩, ?_⟩, named existing⟩
    · exact (State.target?_eq_some_iff symbols).mpr held
    · rintro rfl
      exact differs (getD_idxOf targetKnown)

/-- A line that denotes a move gives it to the draft. -/
theorem apply_of_denotes {line : List Char} {move : String × Char × String}
    (denoted : Denotes line move) : (Line.ofText line).apply false draft =
      draft.addMove move.1 (String.singleton move.2.1) move.2.2 := by
  rcases Spells.opens denoted with ⟨rest, rfl⟩
  rw [ofText_move, Line.apply, readMove_of_denotes denoted]

theorem breaks_of_move (recorded : Recorded false (above.map Line.ofText) draft) {rest : List Char}
    (refused : (Line.ofText ('(' :: rest)).apply false draft = .error fault) :
    Breaks above ('(' :: rest) fault := by
  have names := recorded.names_eq_declaredBy
  cases read : readMove false ('(' :: rest) with
  | error malformation =>
    rw [ofText_move, Line.apply, read] at refused
    cases refused
    refine .form ?_ (readMove_eq_error_iff.mp read)
    intro move denoted
    cases read.symm.trans (readMove_of_denotes denoted false)
  | ok move =>
    have denoted := (readMove_eq_ok_iff_denotes ⟨rest, rfl⟩).mp read
    rw [apply_of_denotes denoted, Draft.addMove_eq_error_iff recorded.proper.names_distinct]
      at refused
    rcases refused with ⟨unknown, rfl⟩ | ⟨sourceKnown, unknown, rfl⟩ | ⟨existing, opposed, rfl⟩
    · exact .source denoted (names ▸ unknown)
    · exact .target denoted (names ▸ sourceKnown) (names ▸ unknown)
    · have known := And.intro opposed.source_known opposed.target_known
      rcases (recorded.opposed_iff known.1 known.2).mp ⟨existing, opposed, rfl⟩ with
        ⟨differs, earlier, among, denotedAbove⟩
      rw [names] at known
      exact .conflict denoted known.1 known.2 among denotedAbove rfl rfl differs

/-- A line is refused exactly if it breaks a rule, and for that rule. -/
theorem apply_eq_error_iff (recorded : Recorded false (above.map Line.ofText) draft)
    {line : List Char} :
    (Line.ofText line).apply false draft = .error fault ↔ Breaks above line fault := by
  have names := recorded.names_eq_declaredBy
  constructor
  · intro refused
    cases form line with
    | alphabet value =>
      rw [ofText_alphabet] at refused
      cases refused
    | states value =>
      rw [ofText_states] at refused
      rcases addStates_eq_error_iff.mp refused with
        ⟨fit, name, rest, listed, ⟨passed, distinct, fresh⟩, unfit⟩
      rw [names] at fresh unfit
      exact .name listed passed distinct fresh unfit
    | start value =>
      rw [ofText_start] at refused
      rcases Draft.setStart_eq_error_iff.mp refused with ⟨unknown, rfl⟩
      exact .start (names ▸ unknown)
    | accepting value =>
      rw [ofText_accepting] at refused
      cases refused
    | move rest => exact recorded.breaks_of_move refused
    | unknown plain =>
      rw [ofText_unknown plain] at refused
      cases refused
  · intro breaks
    cases breaks with
    | name listed passed distinct fresh unfit =>
      rw [← names] at fresh unfit
      rw [ofText_states]
      exact addStates_eq_error_iff.mpr ⟨_, _, _, listed, ⟨passed, distinct, fresh⟩, unfit⟩
    | start unknown =>
      rw [ofText_start]
      exact Draft.setStart_eq_error_iff.mpr ⟨names ▸ unknown, rfl⟩
    | form foreign malformed =>
      rw [ofText_move, Line.apply, readMove_of_malformed malformed]
    | source denoted unknown =>
      rw [apply_of_denotes denoted, Draft.addMove_eq_error_iff recorded.proper.names_distinct,
        names]
      exact .inl ⟨unknown, rfl⟩
    | target denoted sourceKnown unknown =>
      rw [apply_of_denotes denoted, Draft.addMove_eq_error_iff recorded.proper.names_distinct,
        names]
      exact .inr (.inl ⟨sourceKnown, unknown, rfl⟩)
    | conflict denoted sourceKnown targetKnown among denotedAbove source symbol differs =>
      rename_i earlier move other
      rw [apply_of_denotes denoted, Draft.addMove_eq_error_iff recorded.proper.names_distinct]
      rw [← names] at sourceKnown targetKnown
      have opposing : Denotes earlier (move.1, move.2.1, other.2.2) := by
        rw [← source, ← symbol]
        exact denotedAbove
      rcases (recorded.opposed_iff sourceKnown targetKnown).mpr
        ⟨differs, earlier, among, opposing⟩ with ⟨existing, opposed, named⟩
      exact .inr (.inr ⟨existing, opposed, by rw [named]⟩)

/-! ## The first line that breaks a rule -/

/-- A pass is refused at the first line that breaks a rule, and for that
rule. -/
theorem pass_eq_error_iff (recorded : Recorded false (above.map Line.ofText) draft) {number : Nat}
    {lines : List (List Char)} {located : LocatedFault} :
    Specification.pass false draft number lines = .error located ↔
      ∃ front line below fault, lines = front ++ line :: below ∧ Faultless above front ∧
        Breaks (above ++ front) line fault ∧
          located = ⟨fault, some ↑(number + front.length), some (String.ofList line)⟩ := by
  -- A line that is taken moves from the front of the lines to those above.
  induction lines generalizing above draft number with
  | nil => simp [Specification.pass]
  | cons line rest inductionHypothesis =>
    rw [Specification.pass]
    cases applied : (Line.ofText line).apply false draft with
    | error fault =>
      have breaks := recorded.apply_eq_error_iff.mp applied
      constructor
      · rintro ⟨⟩
        exact ⟨[], line, rest, fault, rfl, faultless_nil above, by rwa [List.append_nil], rfl⟩
      · rintro ⟨front, other, below, any, whole, faultless, broken, rfl⟩
        cases front with
        | nil =>
          rcases List.cons.inj whole with ⟨rfl, rfl⟩
          rw [List.append_nil] at broken
          cases applied.symm.trans (recorded.apply_eq_error_iff.mpr broken)
          rfl
        | cons head tail =>
          rcases List.cons.inj whole with ⟨rfl, rfl⟩
          exact absurd breaks ((faultless_cons_iff.mp faultless).1 fault)
    | ok next =>
      have fine : ∀ fault, ¬ Breaks above line fault := by
        intro fault breaks
        cases applied.symm.trans (recorded.apply_eq_error_iff.mpr breaks)
      dsimp only
      rw [inductionHypothesis (recorded.concat applied)]
      constructor
      · rintro ⟨front, other, below, fault, rfl, faultless, broken, rfl⟩
        refine ⟨line :: front, other, below, fault, rfl, ?_, ?_, ?_⟩
        · exact faultless_cons_iff.mpr ⟨fine, faultless⟩
        · rwa [List.append_assoc, List.singleton_append] at broken
        · rw [List.length_cons, Nat.add_assoc, Nat.add_comm 1]
      · rintro ⟨front, other, below, fault, whole, faultless, broken, rfl⟩
        cases front with
        | nil =>
          rcases List.cons.inj whole with ⟨rfl, rfl⟩
          rw [List.append_nil] at broken
          exact absurd broken (fine fault)
        | cons head tail =>
          rcases List.cons.inj whole with ⟨rfl, rfl⟩
          refine ⟨tail, other, below, fault, rfl, (faultless_cons_iff.mp faultless).2, ?_, ?_⟩
          · rwa [List.append_assoc, List.singleton_append]
          · rw [List.length_cons, Nat.add_assoc, Nat.add_comm 1]

/-- A pass that comes to its end meets no line that breaks a rule. -/
theorem faultless_of_pass (recorded : Recorded false (above.map Line.ofText) draft) {number : Nat}
    {lines : List (List Char)} {final : Draft}
    (passed : Specification.pass false draft number lines = .ok final) : Faultless above lines := by
  induction lines generalizing above draft number with
  | nil => exact faultless_nil above
  | cons line rest inductionHypothesis =>
    rw [Specification.pass] at passed
    split at passed
    · rename_i next applied
      refine faultless_cons_iff.mpr ⟨?_, inductionHypothesis (recorded.concat applied) passed⟩
      intro fault breaks
      cases applied.symm.trans (recorded.apply_eq_error_iff.mpr breaks)
    · cases passed

end Recorded

/-- The faults that lines have.  Neither a symbol that is there already nor
one that is too wide for a draft is among them, nor a broken automaton. -/
def OfLine : Fault → Prop
  | .emptyName | .paddedName _ | .reservedInName _ _ | .repeatedState _ | .missingState _ |
    .missingTarget _ | .conflictingMove _ _ _ _ | .malformed _ => True
  | .stated _ | .wideSymbol _ | .repeatedSymbol _ | .broken _ => False

theorem ofLine_of_checkName {name : String} {fault : Fault}
    (refused : checkName name = .error fault) : OfLine fault := by
  unfold checkName at refused
  split at refused
  · cases refused
    trivial
  · split at refused
    · cases refused
      trivial
    · split at refused
      · cases refused
        trivial
      · cases refused

theorem Breaks.ofLine {above : List (List Char)} {line : List Char} {fault : Fault}
    (breaks : Breaks above line fault) : OfLine fault := by
  cases breaks with
  | name _ _ _ _ unfit =>
    cases unfit with
    | unchecked refused => exact ofLine_of_checkName refused
    | repeated => trivial
  | start | form | source | target | conflict => trivial

/-- A specification is refused exactly if one of its lines breaks a rule
behind the lines above it.  It is refused for the first such line, with the
fault, the number and the text of that line. -/
theorem read_refused_iff (text : String) :
    (∀ located, (read false text).result = .error located ↔
      ∃ above line below fault, strippedLines text = above ++ line :: below ∧
        Faultless [] above ∧ Breaks above line fault ∧
          located = ⟨fault, some ↑(above.length + 1), some (String.ofList line)⟩) ∧
    ((∃ located, (read false text).result = .error located) ↔
      ∃ above line below fault, strippedLines text = above ++ line :: below ∧
        Breaks above line fault) ∧
    ∀ located, (read false text).result = .error located → OfLine located.fault := by
  have before : Recorded false (List.map Line.ofText []) Draft.empty := .empty
  have refused : ∀ located, (read false text).result = .error located ↔
      ∃ above line below fault, strippedLines text = above ++ line :: below ∧
        Faultless [] above ∧ Breaks above line fault ∧
          located = ⟨fault, some ↑(above.length + 1), some (String.ofList line)⟩ := by
    intro located
    rw [read_eq_error_iff, before.pass_eq_error_iff]
    simp only [List.nil_append, Nat.add_comm 1]
  refine ⟨refused, ⟨?_, ?_⟩, ?_⟩
  · rintro ⟨located, fails⟩
    rcases (refused located).mp fails with ⟨above, line, below, fault, whole, _, breaks, _⟩
    exact ⟨above, line, below, fault, whole, breaks⟩
  · rintro ⟨above, line, below, fault, whole, breaks⟩
    cases passed : pass false Draft.empty 1 (strippedLines text) with
    | error located => exact ⟨located, read_eq_error_iff.mpr passed⟩
    | ok draft =>
      exact absurd breaks (before.faultless_of_pass passed above line below fault whole)
  · intro located fails
    rcases (refused located).mp fails with ⟨_, _, _, fault, _, _, breaks, rfl⟩
    exact breaks.ofLine

/-- A text with four blank or unknown lines, in which a move is repeated
before another one with the same source and symbol is given. -/
def conflictingLines : String :=
  "# two moves

state={p, q}
(p, a)->q
  
(p,a) -> q
F=r
(p, a)->p
state=p
"

theorem read_refused_conflictingLines :
    (read false conflictingLines).result =
        .error ⟨.conflictingMove "p" "a" "q" "p", some 8, some "(p, a)->p"⟩ ∧
      (∃ above line below fault, strippedLines conflictingLines = above ++ line :: below ∧
        Faultless [] above ∧ Breaks above line fault ∧ above.length = 7) ∧
        OfLine (.conflictingMove "p" "a" "q" "p") := by
  have fails : (read false conflictingLines).result =
      .error ⟨.conflictingMove "p" "a" "q" "p", some 8, some "(p, a)->p"⟩ := by
    decide +kernel
  rcases ((read_refused_iff conflictingLines).1 _).mp fails with
    ⟨above, line, below, fault, whole, faultless, breaks, place⟩
  have number : some (8 : Int) = some ↑(above.length + 1) := congrArg LocatedFault.number place
  refine ⟨fails, ⟨above, line, below, fault, whole, faultless, breaks, ?_⟩, ?_⟩
  · have eight := Option.some.inj number
    omega
  · exact (read_refused_iff conflictingLines).2.2 _ fails

end Specification
end FiniteAutomata
