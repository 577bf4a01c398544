import FiniteAutomata.Proofs.Automaton.Proper
import FiniteAutomata.Proofs.FirstOccurrences
import FiniteAutomata.Proofs.Specification.Edge
import FiniteAutomata.Specification.Reader

namespace FiniteAutomata
namespace Specification

/-!
# The pass over the lines

Reading a specification is one pass over its lines, each without the blanks at
its ends, in which every line changes the draft by itself.  The events that
are reported on the way do not matter to the result.  Since a draft stays
proper, a pass that comes to its end gives an automaton: a specification is
only ever refused at one of its lines.
-/

/-- The lines of a text without the blanks at their ends. -/
def strippedLines (text : String) : List (List Char) :=
  (Text.lines text.toList).map Text.trimmed

/-- What a line does to a draft. -/
def Line.apply (truncate : Bool) (draft : Draft) : Line → Except Fault Draft
  | .alphabet symbols => .ok (addSymbols draft symbols)
  | .states names => addStates draft names
  | .start name => draft.setStart name
  | .accepting names => .ok (draft.markAccepting names)
  | .move text =>
    match readMove truncate text with
    | .error malformation => .error (.malformed malformation)
    | .ok (source, symbol, target) => draft.addMove source (String.singleton symbol) target
  | .other => .ok draft

/-- The draft after lines, the first of which has a given number, or the first
fault with its line. -/
def pass (truncate : Bool) (draft : Draft) : Nat → List (List Char) → Except LocatedFault Draft
  | _, [] => .ok draft
  | number, line :: rest =>
    match (Line.ofText line).apply truncate draft with
    | .ok next => pass truncate next (number + 1) rest
    | .error fault => .error ((LocatedFault.ofFault fault).atLine number (String.ofList line))

/-! ## Reading is a pass -/

theorem addEdge_result (truncate : Bool) (number : Nat) (line : List Char) (draft : Draft) :
    (addEdge truncate number line draft).result = (Line.move line).apply truncate draft := by
  simp only [addEdge, Line.apply, readMove]
  cases Edge.ofLine line with
  | error malformation => rfl
  | ok edge =>
    dsimp only
    cases edge.symbol truncate with
    | error malformation => rfl
    | ok symbol =>
      dsimp only
      cases draft.addMove edge.source (String.singleton symbol) edge.target <;> rfl

theorem readLine_result (truncate : Bool) (number : Nat) (line : List Char) (draft : Draft) :
    (readLine truncate number line draft).result = (Line.ofText line).apply truncate draft := by
  unfold readLine
  cases Line.ofText line with
  | move text => exact addEdge_result truncate number text draft
  | _ => rfl

theorem ofText_nil : Line.ofText [] = .other := by
  decide

theorem readLines_result (truncate : Bool) (draft : Draft) (number : Nat)
    (raws : List (List Char)) :
    (readLines truncate draft number raws).result =
      pass truncate draft number (raws.map Text.trimmed) := by
  induction raws generalizing draft number with
  | nil => rfl
  | cons raw rest inductionHypothesis =>
    rw [readLines, List.map_cons, pass]
    by_cases blank : Text.trimmed raw = []
    · simp only [blank, List.isEmpty_nil, if_true, ofText_nil, Line.apply, inductionHypothesis]
    · have applied := readLine_result truncate number (Text.trimmed raw) draft
      simp only [List.isEmpty_iff, if_neg blank, ← applied]
      rcases readLine truncate number (Text.trimmed raw) draft with ⟨events, fault | next⟩
      · rfl
      · exact inductionHypothesis next (number + 1)

/-! ## What lines of symbols and of names do -/

/-- Symbols are taken in the order in which they come first. -/
theorem addSymbols_eq {draft : Draft} {earlier : List Char}
    (taken : draft.alphabet = earlier.eraseDups) (symbols : List Char) :
    addSymbols draft symbols = { draft with alphabet := (earlier ++ symbols).eraseDups } := by
  induction symbols generalizing draft earlier with
  | nil => rw [addSymbols, List.append_nil, ← taken]
  | cons symbol rest inductionHypothesis =>
    have front : earlier ++ symbol :: rest = (earlier ++ [symbol]) ++ rest := by simp
    have extended := eraseDups_concat earlier symbol
    have known : symbol ∈ draft.alphabet ↔ symbol ∈ earlier := by rw [taken, List.mem_eraseDups]
    rw [addSymbols, front]
    split
    · rename_i member
      rw [if_pos (known.mp member)] at extended
      exact inductionHypothesis (taken.trans extended.symm)
    · rename_i fresh
      rw [if_neg fun member => fresh (known.mpr member)] at extended
      have grown : draft.alphabet ++ [symbol] = (earlier ++ [symbol]).eraseDups := by
        rw [extended, taken]
      rw [inductionHypothesis grown]

/-- The states that a line of names declares. -/
def freshStates (names : List String) : List State :=
  names.map fun name => ⟨name, false, []⟩

theorem map_name_freshStates (names : List String) :
    (freshStates names).map State.name = names := by
  rw [freshStates, List.map_map]
  exact List.map_id names

/-- Names are taken if they fit and none of them is there already, earlier on
the line included. -/
theorem addStates_eq_ok_iff {draft next : Draft} {names : List String} :
    addStates draft names = .ok next ↔ (∀ name ∈ names, NameFits name) ∧ names.Nodup ∧
      (∀ name ∈ names, name ∉ draft.stateNames) ∧
      next = { draft with states := draft.states ++ freshStates names } := by
  induction names generalizing draft with
  | nil => simp [addStates, freshStates, eq_comm]
  | cons name rest inductionHypothesis =>
    rw [addStates]
    constructor
    · intro added
      split at added
      · rename_i middle taken
        rcases Draft.addState_eq_ok_iff.mp taken with ⟨fits, fresh, rfl⟩
        rcases inductionHypothesis.mp added with ⟨restFits, distinct, apart, rfl⟩
        simp only [Draft.stateNames, List.map_append, List.map_cons, List.map_nil, List.mem_append,
          List.mem_singleton, not_or] at apart fresh ⊢
        refine ⟨?_, ?_, ?_, ?_⟩
        · exact List.forall_mem_cons.mpr ⟨fits, restFits⟩
        · exact List.nodup_cons.mpr ⟨fun member => (apart name member).2 rfl, distinct⟩
        · exact List.forall_mem_cons.mpr ⟨fresh, fun other member => (apart other member).1⟩
        · simp [freshStates]
      · cases added
    · rintro ⟨fits, distinct, apart, rfl⟩
      rcases List.nodup_cons.mp distinct with ⟨fresh, later⟩
      rw [Draft.addState_eq_ok_iff.mpr
        ⟨fits name List.mem_cons_self, apart name List.mem_cons_self, rfl⟩]
      refine inductionHypothesis.mpr
        ⟨fun other member => fits other (List.mem_cons_of_mem _ member), later, ?_, ?_⟩
      · intro other member
        simp only [Draft.stateNames, List.map_append, List.map_cons, List.map_nil, List.mem_append,
          List.mem_singleton, not_or]
        refine ⟨apart other (List.mem_cons_of_mem _ member), ?_⟩
        rintro rfl
        exact fresh member
      · simp [freshStates]

/-! ## A pass keeps drafts proper -/

/-- A line that is taken keeps the draft proper. -/
theorem proper_apply {truncate : Bool} {draft next : Draft} (proper : draft.Proper) {line : Line}
    (applied : line.apply truncate draft = .ok next) : next.Proper := by
  cases line with
  | alphabet symbols =>
    rcases Except.ok.inj applied with rfl
    have taken := (eraseDups_of_nodup proper.sound.alphabet_distinct).symm
    rw [addSymbols_eq taken]
    exact proper.withAlphabet (nodup_eraseDups _)
  | states names =>
    rcases addStates_eq_ok_iff.mp applied with ⟨fits, distinct, apart, rfl⟩
    have fresh := map_name_freshStates names
    apply proper.appendStates
    · intro state member
      exact fits state.name (fresh ▸ List.mem_map_of_mem member)
    · intro state member
      rcases List.mem_map.mp member with ⟨name, _, rfl⟩
      rfl
    · rw [fresh, List.nodup_append]
      exact ⟨proper.names_distinct, distinct,
        fun old member new listed same => apart new listed (same ▸ member)⟩
  | start name => exact proper.setStart applied
  | accepting names => exact Except.ok.inj applied ▸ proper.markAccepting names
  | move text =>
    simp only [Line.apply] at applied
    split at applied
    · cases applied
    · exact proper.addMove applied
  | other => exact Except.ok.inj applied ▸ proper

theorem proper_pass {truncate : Bool} {draft final : Draft} (proper : draft.Proper) {number : Nat}
    {lines : List (List Char)} (passed : pass truncate draft number lines = .ok final) :
    final.Proper := by
  induction lines generalizing draft number with
  | nil => exact Except.ok.inj passed ▸ proper
  | cons line rest inductionHypothesis =>
    rw [pass] at passed
    split at passed
    · rename_i next applied
      exact inductionHypothesis (proper_apply proper applied) passed
    · cases passed

/-- What a specification is read as is settled by the pass over its lines. -/
theorem read_result (truncate : Bool) (text : String) :
    (read truncate text).result =
      (pass truncate Draft.empty 1 (strippedLines text)).bind fun draft =>
        draft.build.mapError LocatedFault.ofFault := by
  have lines := readLines_result truncate Draft.empty 1 (Text.lines text.toList)
  unfold read strippedLines
  rw [← lines]
  generalize readLines truncate Draft.empty 1 (Text.lines text.toList) = reading
  rcases reading with ⟨events, fault | draft⟩
  · rfl
  · simp only [Draft.finish, Except.bind]
    cases draft.build <;> rfl

/-- A specification is read as the automaton that the pass over its lines
gives. -/
theorem read_eq_ok_iff {truncate : Bool} {text : String} {automaton : Automaton} :
    (read truncate text).result = .ok automaton ↔ ∃ draft, ∃ proper : draft.Proper,
      pass truncate Draft.empty 1 (strippedLines text) = .ok draft ∧
        automaton = proper.automaton := by
  rw [read_result]
  cases passed : pass truncate Draft.empty 1 (strippedLines text) with
  | error located => simp [Except.bind]
  | ok draft =>
    have proper := proper_pass Draft.Proper.empty passed
    simp only [Except.bind, proper.build, Except.mapError, Except.ok.injEq]
    constructor
    · rintro rfl
      exact ⟨draft, proper, rfl, rfl⟩
    · rintro ⟨_, _, rfl, rfl⟩
      rfl

/-- Nothing is refused behind the pass over the lines. -/
theorem read_eq_error_iff {truncate : Bool} {text : String} {located : LocatedFault} :
    (read truncate text).result = .error located ↔
      pass truncate Draft.empty 1 (strippedLines text) = .error located := by
  rw [read_result]
  cases passed : pass truncate Draft.empty 1 (strippedLines text) with
  | error first => simp [Except.bind]
  | ok draft =>
    have proper := proper_pass Draft.Proper.empty passed
    simp [Except.bind, proper.build, Except.mapError]

end Specification
end FiniteAutomata
