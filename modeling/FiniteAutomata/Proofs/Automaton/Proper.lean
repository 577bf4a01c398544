import FiniteAutomata.Proofs.Automaton.DraftSteps

namespace FiniteAutomata

/-!
# Proper drafts

A draft is proper if it holds together like an automaton and all its names
were checked.  The empty draft is proper, every step that is taken keeps a
draft proper, and a step that is refused leaves the draft as it was.  So
whatever is asked of a draft, it can be built, and building it gives its
states, alphabet and start as they are.
-/

namespace Draft

/-- The draft is an automaton in all but its type, with names that fit. -/
structure Proper (draft : Draft) : Prop where
  sound : Sound draft.states draft.alphabet draft.start
  fits : ∀ name ∈ draft.stateNames, NameFits name

namespace Proper

theorem empty : Draft.empty.Proper where
  sound :=
    { names_nonempty := by simp [Draft.empty]
      names_distinct := List.nodup_nil
      alphabet_distinct := List.nodup_nil
      start_bound := by simp [Draft.empty]
      symbols_distinct := by simp [Draft.empty]
      targets_bound := by simp [Draft.empty] }
  fits := by simp [Draft.empty, stateNames]

variable {draft next : Draft}

theorem names_distinct (proper : draft.Proper) : draft.stateNames.Nodup :=
  proper.sound.names_distinct

theorem targets_bound_names (proper : draft.Proper) {state : State}
    (member : state ∈ draft.states) : ∀ move ∈ state.moves, move.2 < draft.stateNames.length := by
  rw [stateNames, List.length_map]
  exact proper.sound.targets_bound state member

/-! ## Changes that keep a draft proper -/

/-- The alphabet may be any list of distinct symbols. -/
theorem withAlphabet (proper : draft.Proper) {alphabet : List Char} (distinct : alphabet.Nodup) :
    { draft with alphabet := alphabet }.Proper where
  sound := { proper.sound with alphabet_distinct := distinct }
  fits := proper.fits

/-- The start may be any state. -/
theorem withStart (proper : draft.Proper) {index : Nat} (inside : index < draft.states.length) :
    { draft with start := some index }.Proper where
  sound :=
    { proper.sound with
      start_bound := by
        rintro given ⟨⟩
        exact inside }
  fits := proper.fits

/-- States may be changed in everything but their names, as long as their
moves stay a map into the arena. -/
theorem mapStates (proper : draft.Proper) {change : State → State}
    (kept : ∀ state, (change state).name = state.name)
    (symbols : ∀ state ∈ draft.states, ((change state).moves.map Prod.fst).Nodup)
    (targets : ∀ state ∈ draft.states, ∀ move ∈ (change state).moves,
      move.2 < draft.states.length) : (draft.mapStates change).Proper := by
  have names := stateNames_mapStates draft kept
  refine ⟨⟨?_, ?_, proper.sound.alphabet_distinct, ?_, ?_, ?_⟩, ?_⟩
  · intro state member
    rcases List.mem_map.mp member with ⟨old, held, rfl⟩
    rw [kept]
    exact proper.sound.names_nonempty old held
  · change (draft.mapStates change).stateNames.Nodup
    rw [names]
    exact proper.names_distinct
  · intro index start
    rw [Draft.mapStates, List.length_map]
    exact proper.sound.start_bound index start
  · intro state member
    rcases List.mem_map.mp member with ⟨old, held, rfl⟩
    exact symbols old held
  · intro state member
    rcases List.mem_map.mp member with ⟨old, held, rfl⟩
    rw [Draft.mapStates, List.length_map]
    exact targets old held
  · intro name member
    exact proper.fits name (names ▸ member)

/-- The states may be others with the same names and moves in the same
order. -/
theorem withStates (proper : draft.Proper) {states : List State}
    (names : states.map State.name = draft.states.map State.name)
    (moves : states.map State.moves = draft.states.map State.moves) :
    { draft with states := states }.Proper := by
  have size : states.length = draft.states.length := by
    rw [← List.length_map State.name, names, List.length_map]
  have held : ∀ state ∈ states, ∃ old ∈ draft.states, old.moves = state.moves := by
    intro state member
    have among : state.moves ∈ draft.states.map State.moves := moves ▸ List.mem_map_of_mem member
    exact List.mem_map.mp among
  have named : ∀ state ∈ states, state.name ∈ draft.stateNames := by
    intro state member
    rw [stateNames, ← names]
    exact List.mem_map_of_mem member
  refine ⟨⟨?_, ?_, proper.sound.alphabet_distinct, ?_, ?_, ?_⟩, ?_⟩
  · intro state member
    exact (proper.fits _ (named state member)).nonempty
  · rw [names]
    exact proper.names_distinct
  · intro index start
    rw [size]
    exact proper.sound.start_bound index start
  · intro state member
    rcases held state member with ⟨old, there, same⟩
    rw [← same]
    exact proper.sound.symbols_distinct old there
  · intro state member
    rcases held state member with ⟨old, there, same⟩
    rw [← same, size]
    exact proper.sound.targets_bound old there
  · intro name member
    rw [stateNames, names] at member
    exact proper.fits name member

/-- States may be changed in everything but their names and moves. -/
theorem mapStates_of_moves (proper : draft.Proper) {change : State → State}
    (kept : ∀ state, (change state).name = state.name)
    (moves : ∀ state, (change state).moves = state.moves) : (draft.mapStates change).Proper := by
  apply proper.withStates
  · exact stateNames_mapStates draft kept
  · rw [List.map_map]
    exact List.map_congr_left fun state _ => moves state

/-- Fresh states without moves may be put behind the others. -/
theorem appendStates (proper : draft.Proper) {more : List State}
    (fits : ∀ state ∈ more, NameFits state.name) (bare : ∀ state ∈ more, state.moves = [])
    (distinct : (draft.stateNames ++ more.map State.name).Nodup) :
    { draft with states := draft.states ++ more }.Proper := by
  have size : (draft.states ++ more).length = draft.states.length + more.length :=
    List.length_append
  refine ⟨⟨?_, ?_, proper.sound.alphabet_distinct, ?_, ?_, ?_⟩, ?_⟩
  · intro state member
    rcases List.mem_append.mp member with old | new
    · exact proper.sound.names_nonempty state old
    · exact (fits state new).nonempty
  · simpa [stateNames] using distinct
  · intro index start
    have inside := proper.sound.start_bound index start
    simp only [size]
    omega
  · intro state member
    rcases List.mem_append.mp member with old | new
    · exact proper.sound.symbols_distinct state old
    · rw [bare state new]
      exact List.nodup_nil
  · intro state member move inside
    rcases List.mem_append.mp member with old | new
    · have bound := proper.sound.targets_bound state old move inside
      simp only [size]
      omega
    · rw [bare state new] at inside
      cases inside
  · intro name member
    rw [stateNames, List.map_append, List.mem_append] at member
    rcases member with old | new
    · exact proper.fits name old
    · rcases List.mem_map.mp new with ⟨state, held, rfl⟩
      exact fits state held

/-! ## The steps -/

theorem addSymbol (proper : draft.Proper) {text : String}
    (added : draft.addSymbol text = .ok next) : next.Proper := by
  rcases addSymbol_eq_ok_iff.mp added with ⟨symbol, rfl, fresh, rfl⟩
  apply proper.withAlphabet
  simpa using proper.sound.alphabet_distinct.concat fresh

theorem addState (proper : draft.Proper) {name : String} {accepting : Bool}
    (added : draft.addState name accepting = .ok next) : next.Proper := by
  rcases addState_eq_ok_iff.mp added with ⟨fits, fresh, rfl⟩
  apply proper.appendStates
  · simpa using fits
  · simp
  · simpa using proper.names_distinct.concat fresh

theorem setAccepting (proper : draft.Proper) {name : String} {accepting : Bool}
    (set : draft.setAccepting name accepting = .ok next) : next.Proper := by
  rcases (setAccepting_eq_ok_iff proper.names_distinct).mp set with ⟨_, rfl⟩
  apply proper.mapStates_of_moves
  · intro state
    split <;> rfl
  · intro state
    split <;> rfl

theorem markAccepting (proper : draft.Proper) (names : List String) :
    (draft.markAccepting names).Proper := by
  rw [markAccepting_eq proper.names_distinct]
  exact proper.mapStates_of_moves (name_flagged names) (moves_flagged names)

theorem setStart (proper : draft.Proper) {name : String} (set : draft.setStart name = .ok next) :
    next.Proper := by
  rcases setStart_eq_ok_iff.mp set with ⟨known, rfl⟩
  apply proper.withStart
  simpa [stateNames] using List.idxOf_lt_length_of_mem known

theorem addMove (proper : draft.Proper) {source text target : String}
    (added : draft.addMove source text target = .ok next) : next.Proper := by
  rcases (addMove_eq_ok_iff proper.names_distinct).mp added with
    ⟨symbol, rfl, _, targetKnown, _, rfl⟩
  apply proper.mapStates (name_moved _ _ _)
  · intro state member
    have old := proper.sound.symbols_distinct state member
    unfold moved
    split
    · rename_i free
      simpa using old.concat (State.target?_eq_none_iff.mp free.2)
    · exact old
  · intro state member move inside
    have old := proper.sound.targets_bound state member
    unfold moved at inside
    split at inside
    · rcases List.mem_append.mp inside with earlier | last
      · exact old move earlier
      · rw [List.mem_singleton.mp last]
        simpa [stateNames] using List.idxOf_lt_length_of_mem targetKnown
    · exact old move inside

/-! ## Building -/

/-- The automaton that a proper draft is. -/
def automaton (proper : draft.Proper) : Automaton :=
  ⟨draft.states, draft.alphabet, draft.start, proper.sound⟩

theorem stateNames_automaton (proper : draft.Proper) :
    proper.automaton.stateNames = draft.stateNames :=
  rfl

theorem build (proper : draft.Proper) : draft.build = .ok proper.automaton := by
  have checked : draft.toCandidate.check = .ok proper.automaton :=
    proper.automaton.check_toCandidate
  rw [Draft.build, checked]

/-- A move is opposed by the transitions with its source and symbol, and by
nothing else. -/
theorem unopposed_iff (proper : draft.Proper) {source target : String} {symbol : Char}
    (sourceKnown : source ∈ draft.stateNames) (targetKnown : target ∈ draft.stateNames) :
    draft.Unopposed source symbol (draft.stateNames.idxOf target) ↔
      ∀ other, (source, symbol, other) ∈ proper.automaton.transitions → other = target := by
  have distinct := proper.names_distinct
  rcases exists_state sourceKnown with ⟨state, member, rfl, _⟩
  have held : state ∈ proper.automaton.states := member
  rw [Draft.unopposed_iff distinct member]
  constructor
  · intro free other transition
    rcases List.mem_map.mp ((Automaton.mem_named_iff held).mpr transition) with
      ⟨⟨used, index⟩, inside, same⟩
    rcases Prod.mk.inj same with ⟨rfl, rfl⟩
    have symbols := proper.sound.symbols_distinct state member
    rw [free index ((State.target?_eq_some_iff symbols).mpr inside)]
    exact getD_idxOf targetKnown
  · intro agreed index leads
    have inside := State.mem_moves_of_target? leads
    have bound := proper.targets_bound_names member _ inside
    have named := agreed _ ((Automaton.mem_named_iff held).mp (List.mem_map_of_mem inside))
    rw [stateNames_automaton, List.getD_eq_getElem _ _ bound] at named
    rw [← named, distinct.idxOf_getElem]

end Proper

/-! ## Scripts of calls -/

/-- What can be asked of a draft. -/
inductive Call where
  | addSymbol (text : String)
  | checkName (name : String)
  | addState (name : String) (accepting : Bool)
  | setAccepting (name : String) (accepting : Bool)
  | markAccepting (names : List String)
  | setStart (name : String)
  | addMove (source text target : String)
  | build
deriving DecidableEq, Repr

/-- The draft that a call gives, or why the call is refused. -/
def Call.run (draft : Draft) : Call → Except Fault Draft
  | .addSymbol text => draft.addSymbol text
  | .checkName name => (FiniteAutomata.checkName name).map fun _ => draft
  | .addState name accepting => draft.addState name accepting
  | .setAccepting name accepting => draft.setAccepting name accepting
  | .markAccepting names => .ok (draft.markAccepting names)
  | .setStart name => draft.setStart name
  | .addMove source text target => draft.addMove source text target
  | .build => draft.build.map fun _ => draft

/-- The draft after a call: the old one if the call is refused. -/
def Call.next (draft : Draft) (call : Call) : Draft :=
  match call.run draft with
  | .ok next => next
  | .error _ => draft

/-- The draft after calls in their order. -/
def after (draft : Draft) (calls : List Call) : Draft :=
  calls.foldl Call.next draft

theorem exists_of_map_eq_ok {ε α β : Type} {change : α → β} {result : Except ε α} {value : β}
    (mapped : result.map change = .ok value) :
    ∃ found, result = .ok found ∧ change found = value := by
  cases result with
  | error fault => cases mapped
  | ok found => exact ⟨found, rfl, Except.ok.inj mapped⟩

theorem map_const_eq_ok {ε α β : Type} {result : Except ε α} {value next : β}
    (mapped : result.map (fun _ => value) = .ok next) : value = next := by
  rcases exists_of_map_eq_ok mapped with ⟨_, _, same⟩
  exact same

/-- A call that is taken keeps the draft proper. -/
theorem Proper.run {draft next : Draft} (proper : draft.Proper) {call : Call}
    (taken : call.run draft = .ok next) : next.Proper := by
  cases call with
  | addSymbol text => exact proper.addSymbol taken
  | checkName name => exact map_const_eq_ok taken ▸ proper
  | addState name accepting => exact proper.addState taken
  | setAccepting name accepting => exact proper.setAccepting taken
  | markAccepting names => exact Except.ok.inj taken ▸ proper.markAccepting names
  | setStart name => exact proper.setStart taken
  | addMove source text target => exact proper.addMove taken
  | build => exact map_const_eq_ok taken ▸ proper

/-- Calls keep a draft proper, taken or refused. -/
theorem Proper.after {draft : Draft} (proper : draft.Proper) (calls : List Call) :
    (draft.after calls).Proper := by
  induction calls generalizing draft with
  | nil => exact proper
  | cons call rest inductionHypothesis =>
    apply inductionHypothesis
    unfold Call.next
    split
    · rename_i next taken
      exact proper.run taken
    · exact proper

end Draft
end FiniteAutomata
