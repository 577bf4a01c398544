import FiniteAutomata.Proofs.Specification.Pass

namespace FiniteAutomata
namespace Specification

/-!
# What the lines so far say

Every part of a draft is read off the lines that were passed, in their order:
its names and symbols are those that were declared and listed, its start is the
last one named, a state is accepting if a line behind its declaration lists
it, and the moves of a state are the described ones, each where it came first.
This is the invariant of the pass.  It also decides which line can come next.
-/

/-! ## Parts of a line -/

/-- The names that a line declares. -/
def Line.declared : Line → List String
  | .states names => names
  | _ => []

/-- The symbols that a line lists. -/
def Line.listed : Line → List Char
  | .alphabet symbols => symbols
  | _ => []

/-- The start that a line names. -/
def Line.startName? : Line → Option String
  | .start name => some name
  | _ => none

/-- The names that a line lists as accepting. -/
def Line.accepted : Line → List String
  | .accepting names => names
  | _ => []

/-- The move that a line describes. -/
def Line.move? (truncate : Bool) : Line → Option (String × Char × String)
  | .move text => (readMove truncate text).toOption
  | _ => none

/-! ## Parts of many lines -/

/-- The names that lines declare. -/
def declaredNames (lines : List Line) : List String :=
  lines.flatMap Line.declared

/-- The symbols that lines list. -/
def listedSymbols (lines : List Line) : List Char :=
  lines.flatMap Line.listed

/-- The start that is named last. -/
def lastStart? (lines : List Line) : Option String :=
  (lines.filterMap Line.startName?).getLast?

/-- A name is listed as accepting by a line behind its declaration. -/
def Flagged (lines : List Line) (name : String) : Prop :=
  ∃ before line after, lines = before ++ line :: after ∧ name ∈ line.accepted ∧
    name ∈ declaredNames before

/-- The moves that lines describe. -/
def describedMoves (truncate : Bool) (lines : List Line) : List (String × Char × String) :=
  lines.filterMap (Line.move? truncate)

/-- The moves that lines describe for one state. -/
def movesFrom (truncate : Bool) (lines : List Line) (name : String) : List (Char × String) :=
  ((describedMoves truncate lines).filter fun move => move.1 = name).map Prod.snd

section OneMoreLine

variable {lines : List Line} {line : Line} {truncate : Bool} {name : String}

@[simp]
theorem declaredNames_concat :
    declaredNames (lines ++ [line]) = declaredNames lines ++ line.declared := by
  simp [declaredNames]

@[simp]
theorem listedSymbols_concat :
    listedSymbols (lines ++ [line]) = listedSymbols lines ++ line.listed := by
  simp [listedSymbols]

@[simp]
theorem lastStart?_concat :
    lastStart? (lines ++ [line]) = line.startName?.or (lastStart? lines) := by
  unfold lastStart?
  rw [List.filterMap_append, List.getLast?_append]
  cases line <;> rfl

@[simp]
theorem describedMoves_concat : describedMoves truncate (lines ++ [line]) =
    describedMoves truncate lines ++ (line.move? truncate).toList := by
  unfold describedMoves
  rw [List.filterMap_append]
  cases found : line.move? truncate <;> simp [found]

@[simp]
theorem movesFrom_concat : movesFrom truncate (lines ++ [line]) name =
    movesFrom truncate lines name ++
      (((line.move? truncate).toList.filter fun move => move.1 = name).map Prod.snd) := by
  unfold movesFrom
  rw [describedMoves_concat, List.filter_append, List.map_append]

@[simp]
theorem flagged_concat : Flagged (lines ++ [line]) name ↔
    Flagged lines name ∨ (name ∈ line.accepted ∧ name ∈ declaredNames lines) := by
  constructor
  · rintro ⟨before, marker, after, whole, listed, declared⟩
    rcases List.eq_nil_or_concat after with rfl | ⟨front, last, rfl⟩
    · rcases List.append_inj' whole rfl with ⟨rfl, same⟩
      rcases List.cons.inj same with ⟨rfl, _⟩
      exact Or.inr ⟨listed, declared⟩
    · have shifted : lines ++ [line] = (before ++ marker :: front) ++ [last] := by
        rw [whole]
        simp
      rcases List.append_inj' shifted rfl with ⟨rfl, _⟩
      exact Or.inl ⟨before, marker, front, rfl, listed, declared⟩
  · rintro (⟨before, marker, after, rfl, listed, declared⟩ | ⟨listed, declared⟩)
    · exact ⟨before, marker, after ++ [line], by simp, listed, declared⟩
    · exact ⟨lines, line, [], rfl, listed, declared⟩

end OneMoreLine

theorem declared_of_flagged {lines : List Line} {name : String} (flagged : Flagged lines name) :
    name ∈ declaredNames lines := by
  rcases flagged with ⟨before, marker, after, rfl, _, declared⟩
  rw [declaredNames, List.flatMap_append]
  exact List.mem_append_left _ declared

theorem mem_movesFrom_iff {truncate : Bool} {lines : List Line} {name : String}
    {move : Char × String} :
    move ∈ movesFrom truncate lines name ↔ (name, move) ∈ describedMoves truncate lines := by
  unfold movesFrom
  rw [List.mem_map]
  constructor
  · rintro ⟨found, member, rfl⟩
    rcases List.mem_filter.mp member with ⟨described, source⟩
    rw [← of_decide_eq_true source]
    exact described
  · exact fun described => ⟨(name, move), List.mem_filter.mpr ⟨described, by simp⟩, rfl⟩

/-! ## The invariant -/

/-- A draft is what lines say. -/
structure Recorded (truncate : Bool) (lines : List Line) (draft : Draft) : Prop where
  proper : draft.Proper
  names : draft.stateNames = declaredNames lines
  alphabet : draft.alphabet = (listedSymbols lines).eraseDups
  start : draft.start = (lastStart? lines).map draft.stateNames.idxOf
  start_known : ∀ name, lastStart? lines = some name → name ∈ draft.stateNames
  accepting : ∀ state ∈ draft.states, (state.accepting = true ↔ Flagged lines state.name)
  moves : ∀ state ∈ draft.states,
    state.named draft.stateNames = (movesFrom truncate lines state.name).eraseDups
  moves_known : ∀ move ∈ describedMoves truncate lines,
    move.1 ∈ draft.stateNames ∧ move.2.2 ∈ draft.stateNames
  moves_read : ∀ text, Line.move text ∈ lines → ∃ move, readMove truncate text = .ok move

namespace Recorded

variable {truncate : Bool} {lines : List Line} {draft next : Draft}

theorem empty : Recorded truncate [] Draft.empty where
  proper := .empty
  names := rfl
  alphabet := rfl
  start := rfl
  start_known := by rintro name ⟨⟩
  accepting := by rintro state ⟨⟩
  moves := by rintro state ⟨⟩
  moves_known := by rintro move ⟨⟩
  moves_read := by rintro text ⟨⟩

/-- Lines that are no moves have nothing to read. -/
theorem moves_read_concat (recorded : Recorded truncate lines draft) {line : Line}
    (quiet : ∀ text, line ≠ .move text) :
    ∀ text, Line.move text ∈ lines ++ [line] → ∃ move, readMove truncate text = .ok move := by
  intro text member
  rcases List.mem_append.mp member with earlier | last
  · exact recorded.moves_read text earlier
  · exact absurd (List.mem_singleton.mp last).symm (quiet text)

theorem apply_alphabet (recorded : Recorded truncate lines draft) (symbols : List Char) :
    Recorded truncate (lines ++ [.alphabet symbols]) (addSymbols draft symbols) := by
  rw [addSymbols_eq recorded.alphabet]
  exact {
    proper := recorded.proper.withAlphabet (nodup_eraseDups _)
    names := by simpa [Line.declared] using recorded.names
    alphabet := by simp [Line.listed]
    start := by simpa [Line.startName?] using recorded.start
    start_known := by simpa [Line.startName?] using recorded.start_known
    accepting := by simpa [Line.accepted] using recorded.accepting
    moves := by simpa [Line.move?] using recorded.moves
    moves_known := by simpa [Line.move?] using recorded.moves_known
    moves_read := recorded.moves_read_concat (by rintro text ⟨⟩) }

theorem apply_states (recorded : Recorded truncate lines draft) {names : List String}
    (applied : addStates draft names = .ok next) :
    Recorded truncate (lines ++ [.states names]) next := by
  have taken : (Line.states names).apply truncate draft = .ok next := applied
  have proper := proper_apply recorded.proper taken
  rcases addStates_eq_ok_iff.mp applied with ⟨_, _, apart, rfl⟩
  have allNames : ({ draft with states := draft.states ++ freshStates names } : Draft).stateNames =
      draft.stateNames ++ names := by
    simp [Draft.stateNames, map_name_freshStates]
  -- Nothing was said about the new names yet: moves and flags need a declaration before them.
  have undescribed : ∀ name ∈ names, movesFrom truncate lines name = [] := by
    intro name fresh
    rw [List.eq_nil_iff_forall_not_mem]
    intro move described
    exact apart name fresh (recorded.moves_known _ (mem_movesFrom_iff.mp described)).1
  have unflagged : ∀ name ∈ names, ¬ Flagged lines name := by
    intro name fresh flagged
    exact apart name fresh (recorded.names ▸ declared_of_flagged flagged)
  exact {
    proper := proper
    names := by rw [allNames, recorded.names]; simp [Line.declared]
    alphabet := by simpa [Line.listed] using recorded.alphabet
    start := by
      rw [allNames, recorded.start]
      simp only [lastStart?_concat, Line.startName?, Option.none_or]
      cases found : lastStart? lines with
      | none => rfl
      | some name =>
        simp [List.idxOf_append_of_mem (recorded.start_known name found)]
    start_known := by
      intro name found
      rw [allNames]
      apply List.mem_append_left
      exact recorded.start_known name (by simpa [Line.startName?] using found)
    accepting := by
      intro state member
      rcases List.mem_append.mp member with old | new
      · simpa [Line.accepted] using recorded.accepting state old
      · rcases List.mem_map.mp new with ⟨name, fresh, rfl⟩
        simpa [Line.accepted] using unflagged name fresh
    moves := by
      intro state member
      rw [allNames]
      rcases List.mem_append.mp member with old | new
      · rw [State.named_append (recorded.proper.targets_bound_names old)]
        simpa [Line.move?] using recorded.moves state old
      · rcases List.mem_map.mp new with ⟨name, fresh, rfl⟩
        simp [State.named, Line.move?, undescribed name fresh]
    moves_known := by
      intro move described
      rw [allNames]
      have known := recorded.moves_known move (by simpa [Line.move?] using described)
      exact ⟨List.mem_append_left _ known.1, List.mem_append_left _ known.2⟩
    moves_read := recorded.moves_read_concat (by rintro text ⟨⟩) }

theorem apply_start (recorded : Recorded truncate lines draft) {name : String}
    (applied : draft.setStart name = .ok next) :
    Recorded truncate (lines ++ [.start name]) next := by
  have proper := recorded.proper.setStart applied
  rcases Draft.setStart_eq_ok_iff.mp applied with ⟨known, rfl⟩
  exact {
    proper := proper
    names := by simpa [Line.declared] using recorded.names
    alphabet := by simpa [Line.listed] using recorded.alphabet
    start := by simp [Line.startName?]
    start_known := by simpa [Line.startName?] using known
    accepting := by simpa [Line.accepted] using recorded.accepting
    moves := by simpa [Line.move?] using recorded.moves
    moves_known := by simpa [Line.move?] using recorded.moves_known
    moves_read := recorded.moves_read_concat (by rintro text ⟨⟩) }

theorem apply_accepting (recorded : Recorded truncate lines draft) (names : List String) :
    Recorded truncate (lines ++ [.accepting names]) (draft.markAccepting names) := by
  have proper := recorded.proper.markAccepting names
  rw [Draft.markAccepting_eq recorded.proper.names_distinct] at proper ⊢
  have kept := Draft.stateNames_mapStates draft (Draft.name_flagged names)
  exact {
    proper := proper
    names := by simpa [kept, Line.declared] using recorded.names
    alphabet := by simpa [Line.listed] using recorded.alphabet
    start := by simpa [kept, Line.startName?] using recorded.start
    start_known := by simpa [kept, Line.startName?] using recorded.start_known
    accepting := by
      intro state member
      rcases List.mem_map.mp member with ⟨old, held, rfl⟩
      have declared : old.name ∈ declaredNames lines := recorded.names ▸ List.mem_map_of_mem held
      rw [Draft.accepting_flagged, Draft.name_flagged, flagged_concat, recorded.accepting old held]
      simp [Line.accepted, declared, or_comm]
    moves := by
      intro state member
      rcases List.mem_map.mp member with ⟨old, held, rfl⟩
      rw [kept, Draft.name_flagged, Draft.named_flagged]
      simpa [Line.move?] using recorded.moves old held
    moves_known := by simpa [kept, Line.move?] using recorded.moves_known
    moves_read := recorded.moves_read_concat (by rintro text ⟨⟩) }

/-- The state of the source gets the move behind the others, unless it has it
already; then it was described before. -/
theorem named_moved (recorded : Recorded truncate lines draft) {source target : String}
    {symbol : Char} (targetKnown : target ∈ draft.stateNames)
    (free : draft.Unopposed source symbol (draft.stateNames.idxOf target)) {state : State}
    (member : state ∈ draft.states) :
    (Draft.moved source symbol (draft.stateNames.idxOf target) state).named draft.stateNames =
      (movesFrom truncate lines state.name ++
        if source = state.name then [(symbol, target)] else []).eraseDups :=
  Draft.named_moved (recorded.moves state member) (getD_idxOf targetKnown) (free state member)

theorem apply_move (recorded : Recorded truncate lines draft) {text : List Char}
    {move : String × Char × String} (read : readMove truncate text = .ok move)
    (applied : draft.addMove move.1 (String.singleton move.2.1) move.2.2 = .ok next) :
    Recorded truncate (lines ++ [.move text]) next := by
  rcases move with ⟨source, symbol, target⟩
  have described : (Line.move text).move? truncate = some (source, symbol, target) := by
    simp [Line.move?, read, Except.toOption]
  have proper := recorded.proper.addMove applied
  rcases (Draft.addMove_eq_ok_iff recorded.proper.names_distinct).mp applied with
    ⟨used, single, sourceKnown, targetKnown, free, rfl⟩
  rcases String.singleton_inj.mp single with rfl
  have kept := Draft.stateNames_mapStates draft
    (Draft.name_moved source symbol (draft.stateNames.idxOf target))
  exact {
    proper := proper
    names := by simpa [kept, Line.declared] using recorded.names
    alphabet := by simpa [Line.listed] using recorded.alphabet
    start := by simpa [kept, Line.startName?] using recorded.start
    start_known := by simpa [kept, Line.startName?] using recorded.start_known
    accepting := by
      intro state member
      rcases List.mem_map.mp member with ⟨old, held, rfl⟩
      rw [Draft.accepting_moved, Draft.name_moved]
      simpa [Line.accepted] using recorded.accepting old held
    moves := by
      intro state member
      rcases List.mem_map.mp member with ⟨old, held, rfl⟩
      rw [kept, Draft.name_moved, recorded.named_moved targetKnown free held, movesFrom_concat,
        described]
      by_cases same : source = old.name <;> simp [same]
    moves_known := by
      intro given member
      rw [kept]
      rw [describedMoves_concat, described, Option.toList_some, List.mem_append,
        List.mem_singleton] at member
      rcases member with earlier | rfl
      · exact recorded.moves_known given earlier
      · exact ⟨sourceKnown, targetKnown⟩
    moves_read := by
      intro given member
      rcases List.mem_append.mp member with earlier | last
      · exact recorded.moves_read given earlier
      · rcases Line.move.inj (List.mem_singleton.mp last) with rfl
        exact ⟨_, read⟩ }

theorem apply_other (recorded : Recorded truncate lines draft) :
    Recorded truncate (lines ++ [.other]) draft where
  proper := recorded.proper
  names := by simpa [Line.declared] using recorded.names
  alphabet := by simpa [Line.listed] using recorded.alphabet
  start := by simpa [Line.startName?] using recorded.start
  start_known := by simpa [Line.startName?] using recorded.start_known
  accepting := by simpa [Line.accepted] using recorded.accepting
  moves := by simpa [Line.move?] using recorded.moves
  moves_known := by simpa [Line.move?] using recorded.moves_known
  moves_read := recorded.moves_read_concat (by rintro text ⟨⟩)

/-! ## Along the pass -/

/-- A line that is taken is recorded. -/
theorem apply (recorded : Recorded truncate lines draft) {line : Line}
    (applied : line.apply truncate draft = .ok next) :
    Recorded truncate (lines ++ [line]) next := by
  cases line with
  | alphabet symbols => exact Except.ok.inj applied ▸ recorded.apply_alphabet symbols
  | states names => exact recorded.apply_states applied
  | start name => exact recorded.apply_start applied
  | accepting names => exact Except.ok.inj applied ▸ recorded.apply_accepting names
  | move text =>
    simp only [Line.apply] at applied
    split at applied
    · cases applied
    · rename_i source symbol target read
      exact recorded.apply_move read applied
  | other => exact Except.ok.inj applied ▸ recorded.apply_other

/-- The texts of the lines that were taken so far, and one more. -/
theorem concat {above : List (List Char)}
    (recorded : Recorded truncate (above.map Line.ofText) draft) {text : List Char}
    (applied : (Line.ofText text).apply truncate draft = .ok next) :
    Recorded truncate ((above ++ [text]).map Line.ofText) next := by
  rw [List.map_append, List.map_singleton]
  exact recorded.apply applied

/-- The draft at the end of a pass is what all lines say. -/
theorem pass (recorded : Recorded truncate lines draft) {number : Nat} {texts : List (List Char)}
    {final : Draft} (passed : Specification.pass truncate draft number texts = .ok final) :
    Recorded truncate (lines ++ texts.map Line.ofText) final := by
  induction texts generalizing lines draft number with
  | nil =>
    rcases Except.ok.inj passed with rfl
    simpa using recorded
  | cons text rest inductionHypothesis =>
    rw [Specification.pass] at passed
    split at passed
    · rename_i next applied
      simpa using inductionHypothesis (recorded.apply applied) passed
    · cases passed

/-- The moves of a state are those that were described for it. -/
theorem mem_named_iff (recorded : Recorded truncate lines draft) {state : State}
    (member : state ∈ draft.states) {move : Char × String} :
    move ∈ state.named draft.stateNames ↔ (state.name, move) ∈ describedMoves truncate lines := by
  rw [recorded.moves state member, List.mem_eraseDups, mem_movesFrom_iff]

/-- The transitions are the described moves. -/
theorem mem_transitions_iff (recorded : Recorded truncate lines draft)
    {move : String × Char × String} :
    move ∈ recorded.proper.automaton.transitions ↔ move ∈ describedMoves truncate lines := by
  rw [Automaton.mem_transitions_iff, Draft.Proper.stateNames_automaton]
  constructor
  · rintro ⟨state, member, source, inside⟩
    rw [recorded.mem_named_iff member, source] at inside
    exact inside
  · intro described
    rcases List.mem_map.mp (recorded.moves_known move described).1 with ⟨state, member, source⟩
    refine ⟨state, member, source, ?_⟩
    rw [recorded.mem_named_iff member, source]
    exact described

end Recorded

/-- Whatever is read is recorded. -/
theorem recorded_of_read {truncate : Bool} {text : String} {automaton : Automaton}
    (readable : (read truncate text).result = .ok automaton) :
    ∃ draft, ∃ recorded : Recorded truncate ((strippedLines text).map Line.ofText) draft,
      pass truncate Draft.empty 1 (strippedLines text) = .ok draft ∧
        automaton = recorded.proper.automaton := by
  rcases read_eq_ok_iff.mp readable with ⟨draft, proper, passed, rfl⟩
  exact ⟨draft, Recorded.empty.pass passed, passed, rfl⟩

/-! ## Which line can come next -/

/-- A line can come behind others. -/
def Line.Admissible (truncate : Bool) (lines : List Line) : Line → Prop
  | .states names => (∀ name ∈ names, NameFits name) ∧ names.Nodup ∧
      ∀ name ∈ names, name ∉ declaredNames lines
  | .start name => name ∈ declaredNames lines
  | .move text => ∃ move, readMove truncate text = .ok move ∧ move.1 ∈ declaredNames lines ∧
      move.2.2 ∈ declaredNames lines ∧ ∀ other ∈ describedMoves truncate lines,
        other.1 = move.1 → other.2.1 = move.2.1 → other.2.2 = move.2.2
  | _ => True

/-- Lines can come behind others, one after another. -/
def Admissible (truncate : Bool) (lines : List Line) : List Line → Prop
  | [] => True
  | line :: rest => line.Admissible truncate lines ∧ Admissible truncate (lines ++ [line]) rest

theorem admissible_append_iff {truncate : Bool} {lines first second : List Line} :
    Admissible truncate lines (first ++ second) ↔
      Admissible truncate lines first ∧ Admissible truncate (lines ++ first) second := by
  induction first generalizing lines with
  | nil => simp [Admissible]
  | cons line rest inductionHypothesis =>
    rw [List.cons_append, Admissible, Admissible, inductionHypothesis, and_assoc, List.append_assoc,
      List.singleton_append]

namespace Recorded

variable {truncate : Bool} {lines : List Line} {draft : Draft}

/-- A move is opposed by the moves that were described with its source and
symbol, and by nothing else. -/
theorem unopposed_iff (recorded : Recorded truncate lines draft) {source target : String}
    {symbol : Char} (sourceKnown : source ∈ draft.stateNames)
    (targetKnown : target ∈ draft.stateNames) :
    draft.Unopposed source symbol (draft.stateNames.idxOf target) ↔
      ∀ other ∈ describedMoves truncate lines, other.1 = source → other.2.1 = symbol →
        other.2.2 = target := by
  rw [recorded.proper.unopposed_iff sourceKnown targetKnown]
  simp only [recorded.mem_transitions_iff]
  constructor
  · rintro agreed ⟨_, _, name⟩ described rfl rfl
    exact agreed name described
  · intro agreed name described
    exact agreed (source, symbol, name) described rfl rfl

/-- The lines that are taken are those that can come next. -/
theorem apply_ok_iff (recorded : Recorded truncate lines draft) (line : Line) :
    (∃ next, line.apply truncate draft = .ok next) ↔ line.Admissible truncate lines := by
  cases line with
  | alphabet symbols => exact ⟨fun _ => trivial, fun _ => ⟨_, rfl⟩⟩
  | states names =>
    rw [Line.Admissible, ← recorded.names]
    constructor
    · rintro ⟨next, applied⟩
      rcases addStates_eq_ok_iff.mp applied with ⟨fits, distinct, apart, _⟩
      exact ⟨fits, distinct, apart⟩
    · rintro ⟨fits, distinct, apart⟩
      exact ⟨_, addStates_eq_ok_iff.mpr ⟨fits, distinct, apart, rfl⟩⟩
  | start name =>
    rw [Line.Admissible, ← recorded.names]
    constructor
    · rintro ⟨next, applied⟩
      exact (Draft.setStart_eq_ok_iff.mp applied).1
    · intro known
      exact ⟨_, Draft.setStart_eq_ok_iff.mpr ⟨known, rfl⟩⟩
  | accepting names => exact ⟨fun _ => trivial, fun _ => ⟨_, rfl⟩⟩
  | move text =>
    have distinct := recorded.proper.names_distinct
    rw [Line.Admissible, ← recorded.names]
    simp only [Line.apply]
    constructor
    · rintro ⟨next, applied⟩
      split at applied
      · cases applied
      · rename_i source symbol target read
        rcases (Draft.addMove_eq_ok_iff distinct).mp applied with
          ⟨used, single, sourceKnown, targetKnown, free, _⟩
        rcases String.singleton_inj.mp single with rfl
        exact ⟨_, read, sourceKnown, targetKnown,
          (recorded.unopposed_iff sourceKnown targetKnown).mp free⟩
    · rintro ⟨⟨source, symbol, target⟩, read, sourceKnown, targetKnown, agreed⟩
      have free := (recorded.unopposed_iff sourceKnown targetKnown).mpr agreed
      rw [read]
      exact ⟨_, (Draft.addMove_eq_ok_iff distinct).mpr
        ⟨symbol, rfl, sourceKnown, targetKnown, free, rfl⟩⟩
  | other => exact ⟨fun _ => trivial, fun _ => ⟨_, rfl⟩⟩

/-- A pass comes to its end if every line can come behind those before it. -/
theorem pass_ok_iff (recorded : Recorded truncate lines draft) {number : Nat}
    {texts : List (List Char)} :
    (∃ final, Specification.pass truncate draft number texts = .ok final) ↔
      Admissible truncate lines (texts.map Line.ofText) := by
  induction texts generalizing lines draft number with
  | nil => exact ⟨fun _ => trivial, fun _ => ⟨draft, rfl⟩⟩
  | cons text rest inductionHypothesis =>
    rw [Specification.pass, List.map_cons, Admissible, ← recorded.apply_ok_iff]
    constructor
    · rintro ⟨final, passed⟩
      split at passed
      · rename_i next applied
        exact ⟨⟨next, applied⟩, (inductionHypothesis (recorded.apply applied)).mp ⟨final, passed⟩⟩
      · cases passed
    · rintro ⟨⟨next, applied⟩, later⟩
      rw [applied]
      exact (inductionHypothesis (recorded.apply applied)).mpr later

end Recorded

/-- A specification is read exactly if its lines can come one after another. -/
theorem exists_read_iff {truncate : Bool} {text : String} :
    (∃ automaton, (read truncate text).result = .ok automaton) ↔
      Admissible truncate [] ((strippedLines text).map Line.ofText) := by
  rw [← Recorded.empty.pass_ok_iff]
  constructor
  · rintro ⟨automaton, readable⟩
    rcases read_eq_ok_iff.mp readable with ⟨draft, _, passed, _⟩
    exact ⟨draft, passed⟩
  · rintro ⟨draft, passed⟩
    have proper := proper_pass Draft.Proper.empty passed
    exact ⟨proper.automaton, read_eq_ok_iff.mpr ⟨draft, proper, passed, rfl⟩⟩

end Specification
end FiniteAutomata
