import FiniteAutomata.Automaton.Draft
import FiniteAutomata.Proofs.Automaton.Named
import FiniteAutomata.Proofs.FirstOccurrences
import FiniteAutomata.Proofs.Text.Pieces
import FiniteAutomata.Proofs.Text.Trimmed

namespace FiniteAutomata

/-!
# Steps of a draft

Each step of a draft is described by when it succeeds and by the draft it then
gives, in names only: a step that changes states changes all states of a name,
and in a sound draft there is at most one.  A sound draft whose names were
checked stays so through every step, and building it cannot fail.
-/

/-! ## Names that a state can have -/

/-- The names that pass are not empty, have no blanks at their ends, and hold
no mark of the specification format. -/
structure NameFits (name : String) : Prop where
  nonempty : name ≠ ""
  trimmed : Text.trimmed name.toList = name.toList
  comma : ',' ∉ name.toList
  opening : '\x7b' ∉ name.toList
  closing : '\x7d' ∉ name.toList
  left : '(' ∉ name.toList
  right : ')' ∉ name.toList
  arrow : Text.ArrowFree name.toList

theorem singleton_infix_iff {c : Char} {text : List Char} : [c] <:+: text ↔ c ∈ text := by
  constructor
  · exact fun inside => inside.subset List.mem_cons_self
  · intro member
    rcases List.append_of_mem member with ⟨before, after, whole⟩
    exact ⟨before, after, by rw [whole]; simp⟩

theorem checkName_eq_ok_iff {name : String} : checkName name = .ok () ↔ NameFits name := by
  have tokens : (reservedTokens.find? fun token => Text.contains token.toList name.toList) = none ↔
      ∀ token ∈ reservedTokens, ¬ token.toList <:+: name.toList := by
    rw [List.find?_eq_none]
    exact forall₂_congr fun token _ => by rw [Text.contains_iff]
  have marks : (∀ token ∈ reservedTokens, ¬ token.toList <:+: name.toList) ↔
      ',' ∉ name.toList ∧ '\x7b' ∉ name.toList ∧ '\x7d' ∉ name.toList ∧ '(' ∉ name.toList ∧
        ')' ∉ name.toList ∧ Text.ArrowFree name.toList := by
    simp only [reservedTokens, List.forall_mem_cons, List.not_mem_nil, false_implies, implies_true,
      and_true]
    simp only [← singleton_infix_iff]
    rfl
  unfold checkName
  constructor
  · intro passed
    split at passed
    · cases passed
    · rename_i nonempty
      split at passed
      · cases passed
      · rename_i padded
        split at passed
        · cases passed
        · rename_i clear
          rcases marks.mp (tokens.mp clear) with ⟨comma, opening, closing, left, right, arrow⟩
          refine ⟨?_, ?_, comma, opening, closing, left, right, arrow⟩
          · simpa [String.isEmpty_iff] using nonempty
          · exact Text.isTrimmed_iff.mp (by simpa using padded)
  · rintro ⟨nonempty, trimmed, comma, opening, closing, left, right, arrow⟩
    have clear := tokens.mpr (marks.mpr ⟨comma, opening, closing, left, right, arrow⟩)
    rw [if_neg (by simpa [String.isEmpty_iff] using nonempty), Text.isTrimmed_iff.mpr trimmed,
      clear]
    rfl

namespace Draft

/-! ## Names and positions -/

theorem indexOf?_eq_idxOf? (draft : Draft) (name : String) :
    draft.indexOf? name = draft.stateNames.idxOf? name := by
  rw [indexOf?, stateNames, List.idxOf?, List.findIdx?_map]
  rfl

theorem indexOf?_eq_none_iff {draft : Draft} {name : String} :
    draft.indexOf? name = none ↔ name ∉ draft.stateNames := by
  rw [indexOf?_eq_idxOf?, List.idxOf?_eq_none_iff]

/-- A name that is there has its first position. -/
theorem indexOf?_of_mem {draft : Draft} {name : String} (known : name ∈ draft.stateNames) :
    draft.indexOf? name = some (draft.stateNames.idxOf name) := by
  cases found : draft.indexOf? name with
  | none => exact absurd known (indexOf?_eq_none_iff.mp found)
  | some index =>
    rw [indexOf?, List.findIdx?_eq_some_iff_findIdx_eq] at found
    rw [stateNames, List.idxOf, List.findIdx_map, ← found.2]
    rfl

/-- Distinct names are found exactly where they stand. -/
theorem indexOf?_eq_some_iff {draft : Draft} (distinct : draft.stateNames.Nodup) {name : String}
    {index : Nat} :
    draft.indexOf? name = some index ↔ draft.stateNames[index]? = some name := by
  constructor
  · intro found
    by_cases known : name ∈ draft.stateNames
    · rw [indexOf?_of_mem known] at found
      cases found
      exact List.getElem?_idxOf known
    · rw [indexOf?_eq_none_iff.mpr known] at found
      cases found
  · intro entry
    rcases List.getElem?_eq_some_iff.mp entry with ⟨inside, rfl⟩
    rw [indexOf?_of_mem (List.getElem_mem inside), distinct.idxOf_getElem]

theorem hasState_iff {draft : Draft} {name : String} :
    draft.hasState name = true ↔ name ∈ draft.stateNames := by
  rw [hasState, indexOf?_eq_idxOf?, List.isSome_idxOf?]

theorem require_eq_ok_iff {draft : Draft} {name : String} {index : Nat} :
    draft.require name = .ok index ↔
      name ∈ draft.stateNames ∧ index = draft.stateNames.idxOf name := by
  unfold require
  by_cases known : name ∈ draft.stateNames
  · rw [indexOf?_of_mem known]
    constructor
    · rintro ⟨⟩
      exact ⟨known, rfl⟩
    · rintro ⟨_, rfl⟩
      rfl
  · rw [indexOf?_eq_none_iff.mpr known]
    constructor
    · rintro ⟨⟩
    · rintro ⟨impossible, _⟩
      exact absurd impossible known

@[simp]
theorem stateNames_of_states (draft : Draft) (alphabet : List Char) (start : Option Nat) :
    ({ alphabet := alphabet, states := draft.states, start := start } : Draft).stateNames =
      draft.stateNames :=
  rfl

/-- The same states, each changed. -/
def mapStates (draft : Draft) (change : State → State) : Draft :=
  { draft with states := draft.states.map change }

@[simp]
theorem alphabet_mapStates (draft : Draft) (change : State → State) :
    (draft.mapStates change).alphabet = draft.alphabet :=
  rfl

@[simp]
theorem start_mapStates (draft : Draft) (change : State → State) :
    (draft.mapStates change).start = draft.start :=
  rfl

@[simp]
theorem stateNames_mapStates (draft : Draft) {change : State → State}
    (kept : ∀ state, (change state).name = state.name) :
    (draft.mapStates change).stateNames = draft.stateNames := by
  simp [mapStates, stateNames, kept]

/-- In a draft with distinct names, the state at the position of a name is the
one of that name. -/
theorem updateState_idxOf {draft : Draft} (distinct : draft.stateNames.Nodup) {name : String}
    (known : name ∈ draft.stateNames) (change : State → State) :
    draft.updateState (draft.stateNames.idxOf name) change =
      draft.mapStates fun state => if state.name = name then change state else state := by
  have changed : draft.states.modify (draft.stateNames.idxOf name) change =
      draft.states.map fun state => if state.name = name then change state else state := by
    apply List.ext_getElem?
    intro index
    rw [List.getElem?_modify, List.getElem?_map]
    cases found : draft.states[index]? with
    | none => rfl
    | some state =>
      have named : draft.stateNames[index]? = some state.name := by
        rw [stateNames, List.getElem?_map, found]
        rfl
      by_cases here : draft.stateNames.idxOf name = index
      · rw [← here, List.getElem?_idxOf known] at named
        rcases Option.some.inj named with rfl
        simp [here]
      · have other : state.name ≠ name := by
          rintro rfl
          rcases List.getElem?_eq_some_iff.mp named with ⟨inside, entry⟩
          exact here (by rw [← entry, distinct.idxOf_getElem])
        simp [here, other]
  rw [updateState, changed]
  rfl

/-! ## What each step does -/

theorem addSymbol_eq_ok_iff {draft next : Draft} {text : String} :
    draft.addSymbol text = .ok next ↔ ∃ symbol, text = String.singleton symbol ∧
      symbol ∉ draft.alphabet ∧ next = { draft with alphabet := draft.alphabet ++ [symbol] } := by
  constructor
  · intro added
    unfold addSymbol at added
    split at added
    · rename_i symbol single
      split at added
      · cases added
      · rename_i fresh
        cases added
        refine ⟨symbol, ?_, fresh, rfl⟩
        rw [← String.toList_inj, single, String.toList_singleton]
    · cases added
  · rintro ⟨symbol, rfl, fresh, rfl⟩
    simp [addSymbol, fresh]

theorem addState_eq_ok_iff {draft next : Draft} {name : String} {accepting : Bool} :
    draft.addState name accepting = .ok next ↔ NameFits name ∧ name ∉ draft.stateNames ∧
      next = { draft with states := draft.states ++ [⟨name, accepting, []⟩] } := by
  unfold addState
  cases checked : checkName name with
  | error fault =>
    constructor
    · rintro ⟨⟩
    · rintro ⟨fits, _, _⟩
      rw [checkName_eq_ok_iff.mpr fits] at checked
      cases checked
  | ok passed =>
    have fits := checkName_eq_ok_iff.mp checked
    by_cases known : draft.hasState name = true
    · simp [known, hasState_iff.mp known]
    · have fresh : name ∉ draft.stateNames := fun member => known (hasState_iff.mpr member)
      simp [known, fits, fresh, eq_comm]

theorem setAccepting_eq_ok_iff {draft next : Draft} (distinct : draft.stateNames.Nodup)
    {name : String} {accepting : Bool} :
    draft.setAccepting name accepting = .ok next ↔ name ∈ draft.stateNames ∧
      next = draft.mapStates fun state =>
        if state.name = name then { state with accepting := accepting } else state := by
  unfold setAccepting
  constructor
  · intro set
    split at set
    · cases set
    · rename_i index found
      rcases require_eq_ok_iff.mp found with ⟨known, rfl⟩
      cases set
      exact ⟨known, updateState_idxOf distinct known _⟩
  · rintro ⟨known, rfl⟩
    rw [require_eq_ok_iff.mpr ⟨known, rfl⟩]
    exact congrArg Except.ok (updateState_idxOf distinct known _)

/-- Flag a state if its name is listed. -/
def flagged (names : List String) (state : State) : State :=
  if state.name ∈ names then { state with accepting := true } else state

theorem name_flagged (names : List String) (state : State) :
    (flagged names state).name = state.name := by
  unfold flagged
  split <;> rfl

theorem moves_flagged (names : List String) (state : State) :
    (flagged names state).moves = state.moves := by
  unfold flagged
  split <;> rfl

theorem named_flagged (names all : List String) (state : State) :
    (flagged names state).named all = state.named all := by
  rw [State.named, moves_flagged, State.named]

theorem accepting_flagged (names : List String) (state : State) :
    (flagged names state).accepting = true ↔ state.name ∈ names ∨ state.accepting = true := by
  unfold flagged
  split
  · rename_i listed
    simp [listed]
  · rename_i unlisted
    simp [unlisted]

theorem markAccepting_eq {draft : Draft} (distinct : draft.stateNames.Nodup) (names : List String) :
    draft.markAccepting names = draft.mapStates (flagged names) := by
  induction names generalizing draft with
  | nil =>
    have same : flagged [] = id := by
      funext state
      simp [flagged]
    rw [markAccepting, mapStates, same, List.map_id]
  | cons name rest inductionHypothesis =>
    unfold markAccepting
    by_cases known : name ∈ draft.stateNames
    · -- The name is flagged first; the rest of the list then meets the same names.
      have first := updateState_idxOf distinct known fun state => { state with accepting := true }
      have kept : ∀ state : State,
          (if state.name = name then { state with accepting := true } else state).name =
            state.name := by
        intro state
        split <;> rfl
      have later : (draft.updateState (draft.stateNames.idxOf name)
          fun state => { state with accepting := true }).stateNames.Nodup := by
        rw [first, stateNames_mapStates draft kept]
        exact distinct
      rw [indexOf?_of_mem known]
      dsimp only
      rw [inductionHypothesis later, first]
      simp only [mapStates, List.map_map]
      congr 1
      apply List.map_congr_left
      intro state _
      by_cases same : state.name = name
      · simp [flagged, same]
      · simp [flagged, same]
    · rw [indexOf?_eq_none_iff.mpr known]
      dsimp only
      rw [inductionHypothesis distinct]
      simp only [mapStates]
      congr 1
      apply List.map_congr_left
      intro state member
      have other : state.name ≠ name := by
        rintro rfl
        exact known (List.mem_map_of_mem member)
      simp [flagged, other]

theorem setStart_eq_ok_iff {draft next : Draft} {name : String} :
    draft.setStart name = .ok next ↔ name ∈ draft.stateNames ∧
      next = { draft with start := some (draft.stateNames.idxOf name) } := by
  unfold setStart
  constructor
  · intro set
    split at set
    · cases set
    · rename_i index found
      rcases require_eq_ok_iff.mp found with ⟨known, rfl⟩
      cases set
      exact ⟨known, rfl⟩
  · rintro ⟨known, rfl⟩
    rw [require_eq_ok_iff.mpr ⟨known, rfl⟩]

/-- Give a state of a name a move, unless it has one for the symbol. -/
def moved (source : String) (symbol : Char) (target : Nat) (state : State) : State :=
  if state.name = source ∧ state.target? symbol = none then
    { state with moves := state.moves ++ [(symbol, target)] }
  else state

theorem name_moved (source : String) (symbol : Char) (target : Nat) (state : State) :
    (moved source symbol target state).name = state.name := by
  unfold moved
  split <;> rfl

theorem accepting_moved (source : String) (symbol : Char) (target : Nat) (state : State) :
    (moved source symbol target state).accepting = state.accepting := by
  unfold moved
  split <;> rfl

/-- A state that has the first occurrences of some moves has them with one move
more, if that is its own and does not lead elsewhere than before. -/
theorem named_moved {names : List String} {state : State} {given : List (Char × String)}
    (old : state.named names = given.eraseDups) {source target : String} {symbol : Char}
    {index : Nat} (entry : names.getD index "" = target)
    (free : state.name = source → ∀ existing, state.target? symbol = some existing →
      existing = index) :
    (moved source symbol index state).named names =
      (given ++ if source = state.name then [(symbol, target)] else []).eraseDups := by
  have among : (symbol, target) ∈ given ↔ (symbol, target) ∈ state.named names := by
    rw [old, List.mem_eraseDups]
  by_cases same : state.name = source
  · rw [if_pos same.symm, eraseDups_concat, ← old]
    cases leads : state.target? symbol with
    | none =>
      have fresh : (symbol, target) ∉ given := by
        rw [among]
        intro present
        have key := List.mem_map_of_mem (f := Prod.fst) present
        rw [State.map_fst_named] at key
        exact State.target?_eq_none_iff.mp leads key
      rw [if_neg fresh, moved, if_pos ⟨same, leads⟩]
      simp only [State.named, List.map_append, List.map_cons, List.map_nil, entry]
    | some existing =>
      rcases free same existing leads with rfl
      have present : (symbol, target) ∈ given := by
        rw [among]
        exact List.mem_map.mpr ⟨_, State.mem_moves_of_target? leads, by rw [entry]⟩
      rw [if_pos present, moved, if_neg (by simp [leads])]
  · rw [if_neg (Ne.symm same), List.append_nil, ← old, moved, if_neg (by simp [same])]

/-- No state of a name has a move for a symbol to another target. -/
def Unopposed (draft : Draft) (source : String) (symbol : Char) (target : Nat) : Prop :=
  ∀ state ∈ draft.states, state.name = source →
    ∀ existing, state.target? symbol = some existing → existing = target

theorem exists_state {draft : Draft} {name : String} (known : name ∈ draft.stateNames) :
    ∃ state ∈ draft.states, state.name = name ∧
      draft.states[draft.stateNames.idxOf name]? = some state := by
  have entry := List.getElem?_idxOf known
  rw [stateNames, List.getElem?_map, Option.map_eq_some_iff] at entry
  rcases entry with ⟨state, found, same⟩
  exact ⟨state, List.mem_of_getElem? found, same, found⟩

theorem eq_of_name_eq {draft : Draft} (distinct : draft.stateNames.Nodup) {first second : State}
    (firstMember : first ∈ draft.states) (secondMember : second ∈ draft.states)
    (same : first.name = second.name) : first = second :=
  List.inj_on_of_nodup_map distinct firstMember secondMember same

theorem unopposed_iff {draft : Draft} (distinct : draft.stateNames.Nodup) {state : State}
    (member : state ∈ draft.states) {symbol : Char} {target : Nat} :
    draft.Unopposed state.name symbol target ↔
      ∀ existing, state.target? symbol = some existing → existing = target := by
  constructor
  · exact fun free => free state member rfl
  · intro free other otherMember same existing leads
    rcases eq_of_name_eq distinct otherMember member same with rfl
    exact free existing leads

/-- The states of a name are changed at its position, or stay if there is a
move already. -/
theorem mapStates_moved {draft : Draft} (distinct : draft.stateNames.Nodup) {state : State}
    (member : state ∈ draft.states) (symbol : Char) (target : Nat) :
    draft.mapStates (moved state.name symbol target) =
      if state.target? symbol = none then
        draft.updateState (draft.stateNames.idxOf state.name) fun state =>
          { state with moves := state.moves ++ [(symbol, target)] }
      else draft := by
  split
  · rename_i free
    rw [updateState_idxOf distinct (List.mem_map_of_mem member), mapStates, mapStates]
    congr 1
    apply List.map_congr_left
    intro other otherMember
    by_cases same : other.name = state.name
    · rcases eq_of_name_eq distinct otherMember member same with rfl
      simp [moved, free]
    · simp [moved, same]
  · rename_i taken
    have kept : draft.states.map (moved state.name symbol target) = draft.states := by
      conv_rhs => rw [← List.map_id draft.states]
      apply List.map_congr_left
      intro other otherMember
      by_cases same : other.name = state.name
      · rcases eq_of_name_eq distinct otherMember member same with rfl
        simp [moved, taken]
      · simp [moved, same]
    rw [mapStates, kept]

/-- A move between known states is settled by what the source already has. -/
theorem addMove_of_known {draft : Draft} {source target : String} (symbol : Char) {state : State}
    (sourceKnown : source ∈ draft.stateNames) (targetKnown : target ∈ draft.stateNames)
    (held : draft.states[draft.stateNames.idxOf source]? = some state) :
    draft.addMove source (String.singleton symbol) target =
      match state.target? symbol with
      | some existing =>
        if existing = draft.stateNames.idxOf target then .ok draft
        else
          .error (.conflictingMove source (String.singleton symbol) (draft.nameAt existing) target)
      | none =>
        .ok (draft.updateState (draft.stateNames.idxOf source) fun state =>
          { state with moves := state.moves ++ [(symbol, draft.stateNames.idxOf target)] }) := by
  have leads : draft.target? (draft.stateNames.idxOf source) symbol = state.target? symbol := by
    rw [target?, held]
  have required := require_eq_ok_iff.mpr ⟨sourceKnown, rfl⟩
  have known := indexOf?_of_mem targetKnown
  cases found : state.target? symbol with
  | none => simp [addMove, required, known, leads, found]
  | some existing => simp [addMove, required, known, leads, found]

/-- A move that is taken has one symbol and leads between known states. -/
theorem known_of_addMove {draft next : Draft} {source text target : String}
    (added : draft.addMove source text target = .ok next) :
    ∃ symbol, text = String.singleton symbol ∧ source ∈ draft.stateNames ∧
      target ∈ draft.stateNames := by
  unfold addMove at added
  split at added
  · rename_i symbol single
    refine ⟨symbol, by rw [← String.toList_inj, single, String.toList_singleton], ?_⟩
    split at added
    · cases added
    · rename_i index found
      refine ⟨(require_eq_ok_iff.mp found).1, ?_⟩
      split at added
      · cases added
      · rename_i goal known
        by_contra absent
        rw [indexOf?_eq_none_iff.mpr absent] at known
        cases known
  · cases added

theorem addMove_eq_ok_iff {draft next : Draft} (distinct : draft.stateNames.Nodup)
    {source text target : String} :
    draft.addMove source text target = .ok next ↔ ∃ symbol, text = String.singleton symbol ∧
      source ∈ draft.stateNames ∧ target ∈ draft.stateNames ∧
      draft.Unopposed source symbol (draft.stateNames.idxOf target) ∧
      next = draft.mapStates (moved source symbol (draft.stateNames.idxOf target)) := by
  -- Between known states all that counts is the one state of the source's name.
  have settled : ∀ symbol, source ∈ draft.stateNames → target ∈ draft.stateNames →
      (draft.addMove source (String.singleton symbol) target = .ok next ↔
        draft.Unopposed source symbol (draft.stateNames.idxOf target) ∧
          next = draft.mapStates (moved source symbol (draft.stateNames.idxOf target))) := by
    intro symbol sourceKnown targetKnown
    rcases exists_state sourceKnown with ⟨state, member, rfl, held⟩
    rw [addMove_of_known symbol sourceKnown targetKnown held, unopposed_iff distinct member,
      mapStates_moved distinct member]
    cases leads : state.target? symbol with
    | none => simp [eq_comm]
    | some existing =>
      by_cases same : existing = draft.stateNames.idxOf target
      · simp [same, eq_comm]
      · simp [same]
  constructor
  · intro added
    rcases known_of_addMove added with ⟨symbol, rfl, sourceKnown, targetKnown⟩
    exact ⟨symbol, rfl, sourceKnown, targetKnown, (settled symbol sourceKnown targetKnown).mp added⟩
  · rintro ⟨symbol, rfl, sourceKnown, targetKnown, result⟩
    exact (settled symbol sourceKnown targetKnown).mpr result

/-- What is reported of a move does not matter to the draft. -/
theorem move_result (draft : Draft) (source text target : String) :
    (draft.move source text target).result = draft.addMove source text target := by
  unfold move
  cases draft.addMove source text target <;> rfl

end Draft
end FiniteAutomata
