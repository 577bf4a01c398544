import FiniteAutomata.Proofs.Automaton.Mirrored
import FiniteAutomata.Proofs.Automaton.NameView

namespace FiniteAutomata

/-!
# What calls have built

Of the calls that were made of a draft only those that were taken count, and
each part of the draft is read off them in their order: the names and the
symbols are those that were added, a flag is the one that was given last, the
start is the last one that was set, and the moves of a state are the given
ones, each where it was given first.  This is the invariant of the calls; one
call that is taken says one thing more.
-/

namespace Draft

/-! ## Parts of a call -/

namespace Call

/-- The name that a call adds. -/
def stateName? : Call → Option String
  | .addState name _ => some name
  | _ => none

/-- The symbol that a call adds. -/
def symbolText? : Call → Option String
  | .addSymbol text => some text
  | _ => none

/-- The start that a call sets. -/
def startName? : Call → Option String
  | .setStart name => some name
  | _ => none

/-- The flag that a call gives to the state of a name. -/
def flagFor? (name : String) : Call → Option Bool
  | .addState other accepting => if other = name then some accepting else none
  | .setAccepting other accepting => if other = name then some accepting else none
  | .markAccepting names => if name ∈ names then some true else none
  | _ => none

/-- The symbol and the target of a move that a call gives to the state of a
name. -/
def moveFrom? (name : String) : Call → Option (Char × String)
  | .addMove source text target =>
    match text.toList with
    | [symbol] => if source = name then some (symbol, target) else none
    | _ => none
  | _ => none

theorem moveFrom?_eq_some_iff {call : Call} {name : String} {symbol : Char} {target : String} :
    call.moveFrom? name = some (symbol, target) ↔
      call = .addMove name (String.singleton symbol) target := by
  constructor
  · intro said
    unfold moveFrom? at said
    split at said
    · rename_i source text goal
      split at said
      · rename_i read single
        split at said
        · rename_i same
          cases said
          have whole : text = String.singleton symbol := by
            rw [← String.toList_inj, single, String.toList_singleton]
          rw [same, whole]
        · cases said
      · cases said
    · cases said
  · rintro rfl
    simp [moveFrom?]

theorem moveFrom?_eq_none {call : Call}
    (unmoved : ∀ source text target, call ≠ .addMove source text target) (name : String) :
    call.moveFrom? name = none := by
  rw [Option.eq_none_iff_forall_ne_some]
  rintro ⟨symbol, target⟩ said
  exact unmoved _ _ _ (moveFrom?_eq_some_iff.mp said)

/-- The call says nothing but flags. -/
structure OnlyFlags (call : Call) : Prop where
  unnamed : call.stateName? = none
  unlisted : call.symbolText? = none
  unstarted : call.startName? = none
  unmoved : ∀ source text target, call ≠ .addMove source text target

end Call

/-- What calls say last. -/
def last? {α : Type} (part : Call → Option α) (calls : List Call) : Option α :=
  (calls.filterMap part).getLast?

theorem last?_concat {α : Type} (part : Call → Option α) (calls : List Call) (call : Call) :
    last? part (calls ++ [call]) = (part call).or (last? part calls) := by
  rw [last?, last?, List.filterMap_append, List.getLast?_append]
  cases said : part call <;> simp [said]

/-- The calls that are taken, in their order. -/
def taken (draft : Draft) : List Call → List Call
  | [] => []
  | call :: rest =>
    match call.run draft with
    | .ok next => call :: next.taken rest
    | .error _ => draft.taken rest

/-! ## The invariant -/

/-- A draft is what calls that were taken say. -/
structure Told (calls : List Call) (draft : Draft) : Prop where
  proper : draft.Proper
  names : draft.stateNames = calls.filterMap Call.stateName?
  alphabet : draft.alphabet.map String.singleton = calls.filterMap Call.symbolText?
  start : (draft.start.bind fun index => draft.stateNames[index]?) = last? Call.startName? calls
  flags : ∀ state ∈ draft.states, last? (Call.flagFor? state.name) calls = some state.accepting
  moves : ∀ state ∈ draft.states,
    state.named draft.stateNames = (calls.filterMap (Call.moveFrom? state.name)).eraseDups
  moves_known : ∀ source text target, Call.addMove source text target ∈ calls →
    ∃ symbol, text = String.singleton symbol ∧ source ∈ draft.stateNames ∧
      target ∈ draft.stateNames

namespace Told

variable {calls : List Call} {draft next : Draft}

theorem empty : Told [] Draft.empty where
  proper := .empty
  names := rfl
  alphabet := rfl
  start := rfl
  flags := by rintro state ⟨⟩
  moves := by rintro state ⟨⟩
  moves_known := by rintro source text target ⟨⟩

/-- Calls that are no moves leave the moves that were given. -/
theorem moves_known_concat (told : Told calls draft) {call : Call}
    (quiet : ∀ source text target, call ≠ .addMove source text target) :
    ∀ source text target, Call.addMove source text target ∈ calls ++ [call] →
      ∃ symbol, text = String.singleton symbol ∧ source ∈ draft.stateNames ∧
        target ∈ draft.stateNames := by
  intro source text target member
  rcases List.mem_append.mp member with earlier | last
  · exact told.moves_known source text target earlier
  · exact absurd (List.mem_singleton.mp last).symm (quiet source text target)

/-- A move that was given for a name leads between known states. -/
theorem known_of_moveFrom? (told : Told calls draft) {name : String} {move : Char × String}
    (given : move ∈ calls.filterMap (Call.moveFrom? name)) : name ∈ draft.stateNames := by
  rcases List.mem_filterMap.mp given with ⟨call, member, said⟩
  rcases Call.moveFrom?_eq_some_iff.mp said with rfl
  rcases told.moves_known _ _ _ member with ⟨_, _, known, _⟩
  exact known

theorem addSymbol (told : Told calls draft) {text : String}
    (added : draft.addSymbol text = .ok next) : Told (calls ++ [.addSymbol text]) next := by
  have proper := told.proper.addSymbol added
  rcases addSymbol_eq_ok_iff.mp added with ⟨symbol, rfl, _, rfl⟩
  exact {
    proper := proper
    names := by simpa [List.filterMap_cons, Call.stateName?] using told.names
    alphabet := by
      rw [List.filterMap_append, ← told.alphabet, List.map_append]
      rfl
    start := by simpa [last?_concat, Call.startName?] using told.start
    flags := by simpa [last?_concat, Call.flagFor?] using told.flags
    moves := by simpa [List.filterMap_cons, Call.moveFrom?] using told.moves
    moves_known := told.moves_known_concat (by rintro source given target ⟨⟩) }

/-- A new state has the flag that it was added with and no moves, since moves
are given between states that are there. -/
theorem addState (told : Told calls draft) {name : String} {accepting : Bool}
    (added : draft.addState name accepting = .ok next) :
    Told (calls ++ [.addState name accepting]) next := by
  have proper := told.proper.addState added
  rcases addState_eq_ok_iff.mp added with ⟨_, fresh, rfl⟩
  have allNames : ({ draft with states := draft.states ++ [⟨name, accepting, []⟩] } :
      Draft).stateNames = draft.stateNames ++ [name] := by simp [stateNames]
  have apart : ∀ state ∈ draft.states, ¬ name = state.name := by
    rintro state member rfl
    exact fresh (List.mem_map_of_mem member)
  have unmoved : calls.filterMap (Call.moveFrom? name) = [] := by
    rw [List.eq_nil_iff_forall_not_mem]
    exact fun move given => fresh (told.known_of_moveFrom? given)
  exact {
    proper := proper
    names := by
      rw [allNames, told.names, List.filterMap_append]
      rfl
    alphabet := by simpa [List.filterMap_cons, Call.symbolText?] using told.alphabet
    start := by
      rw [allNames, last?_concat, ← told.start]
      cases begins : draft.start with
      | none => rfl
      | some index =>
        have inside : index < draft.stateNames.length := by
          simpa [stateNames] using told.proper.sound.start_bound index begins
        simp [Call.startName?, List.getElem?_append_left inside]
    flags := by
      intro state member
      rcases List.mem_append.mp member with old | new
      · simpa [last?_concat, Call.flagFor?, apart state old] using told.flags state old
      · rcases List.mem_singleton.mp new with rfl
        simp [last?_concat, Call.flagFor?]
    moves := by
      intro state member
      rw [allNames]
      rcases List.mem_append.mp member with old | new
      · rw [State.named_append (told.proper.targets_bound_names old)]
        simpa [List.filterMap_cons, Call.moveFrom?] using told.moves state old
      · rcases List.mem_singleton.mp new with rfl
        simp [State.named, List.filterMap_cons, Call.moveFrom?, unmoved]
    moves_known := by
      intro source text target member
      rcases told.moves_known_concat (by rintro source text target ⟨⟩) source text target member
        with ⟨symbol, single, sourceKnown, targetKnown⟩
      rw [allNames]
      exact ⟨symbol, single, List.mem_append_left _ sourceKnown,
        List.mem_append_left _ targetKnown⟩ }

/-- Flags may be given to states as a call says. -/
theorem mapFlags (told : Told calls draft) {call : Call} {change : State → State}
    (taken : call.run draft = .ok (draft.mapStates change)) (onlyFlags : call.OnlyFlags)
    (name : ∀ state, (change state).name = state.name)
    (moves : ∀ state, (change state).moves = state.moves)
    (flags : ∀ state ∈ draft.states, some (change state).accepting =
      (call.flagFor? state.name).or (some state.accepting)) :
    Told (calls ++ [call]) (draft.mapStates change) := by
  have kept := stateNames_mapStates draft name
  exact {
    proper := told.proper.run taken
    names := by simpa [kept, List.filterMap_cons, onlyFlags.unnamed] using told.names
    alphabet := by simpa [List.filterMap_cons, onlyFlags.unlisted] using told.alphabet
    start := by simpa [kept, last?_concat, onlyFlags.unstarted] using told.start
    flags := by
      intro state member
      rcases List.mem_map.mp member with ⟨old, held, rfl⟩
      rw [name, last?_concat, told.flags old held, flags old held]
    moves := by
      intro state member
      rcases List.mem_map.mp member with ⟨old, held, rfl⟩
      rw [kept, name, State.named, moves, ← State.named, told.moves old held]
      simp [Call.moveFrom?_eq_none onlyFlags.unmoved]
    moves_known := by
      rw [kept]
      exact told.moves_known_concat onlyFlags.unmoved }

theorem setAccepting (told : Told calls draft) {name : String} {accepting : Bool}
    (set : draft.setAccepting name accepting = .ok next) :
    Told (calls ++ [.setAccepting name accepting]) next := by
  rcases (setAccepting_eq_ok_iff told.proper.names_distinct).mp set with ⟨_, rfl⟩
  have taken : (Call.setAccepting name accepting).run draft = _ := set
  apply told.mapFlags taken ⟨rfl, rfl, rfl, by rintro source text target ⟨⟩⟩
  · intro state
    split <;> rfl
  · intro state
    split <;> rfl
  · intro state _
    by_cases same : state.name = name
    · simp [Call.flagFor?, same]
    · simp [Call.flagFor?, same, Ne.symm same]

theorem markAccepting (told : Told calls draft) (names : List String) :
    Told (calls ++ [.markAccepting names]) (draft.markAccepting names) := by
  have marked := markAccepting_eq told.proper.names_distinct names
  have taken : (Call.markAccepting names).run draft = .ok (draft.mapStates (flagged names)) :=
    congrArg Except.ok marked
  rw [marked]
  apply told.mapFlags taken ⟨rfl, rfl, rfl, by rintro source text target ⟨⟩⟩
    (name_flagged names) (moves_flagged names)
  intro state _
  by_cases listed : state.name ∈ names <;> simp [Call.flagFor?, flagged, listed]

/-- A call that changes no draft says nothing about it. -/
theorem unchanged (told : Told calls draft) {call : Call} (taken : call.run draft = .ok draft)
    (onlyFlags : call.OnlyFlags) (unflagged : ∀ name, call.flagFor? name = none) :
    Told (calls ++ [call]) draft := by
  have same : draft.mapStates id = draft := by simp [mapStates]
  have still : call.run draft = .ok (draft.mapStates id) := by rw [same, taken]
  exact same ▸ told.mapFlags still onlyFlags (fun _ => rfl) (fun _ => rfl) (by simp [unflagged])

theorem setStart (told : Told calls draft) {name : String}
    (set : draft.setStart name = .ok next) : Told (calls ++ [.setStart name]) next := by
  have proper := told.proper.setStart set
  rcases setStart_eq_ok_iff.mp set with ⟨known, rfl⟩
  exact {
    proper := proper
    names := by simpa [List.filterMap_cons, Call.stateName?] using told.names
    alphabet := by simpa [List.filterMap_cons, Call.symbolText?] using told.alphabet
    start := by simp [last?_concat, Call.startName?, List.getElem?_idxOf known]
    flags := by simpa [last?_concat, Call.flagFor?] using told.flags
    moves := by simpa [List.filterMap_cons, Call.moveFrom?] using told.moves
    moves_known := told.moves_known_concat (by rintro source given target ⟨⟩) }

/-- A move that was given before is given once more without effect; a new one
comes behind the moves that its source has. -/
theorem addMove (told : Told calls draft) {source text target : String}
    (added : draft.addMove source text target = .ok next) :
    Told (calls ++ [.addMove source text target]) next := by
  have proper := told.proper.addMove added
  rcases (addMove_eq_ok_iff told.proper.names_distinct).mp added with
    ⟨symbol, rfl, sourceKnown, targetKnown, free, rfl⟩
  have kept := stateNames_mapStates draft
    (name_moved source symbol (draft.stateNames.idxOf target))
  exact {
    proper := proper
    names := by simpa [kept, List.filterMap_cons, Call.stateName?] using told.names
    alphabet := by simpa [List.filterMap_cons, Call.symbolText?] using told.alphabet
    start := by simpa [kept, last?_concat, Call.startName?] using told.start
    flags := by
      intro state member
      rcases List.mem_map.mp member with ⟨old, held, rfl⟩
      rw [name_moved, accepting_moved, last?_concat]
      exact told.flags old held
    moves := by
      intro state member
      rcases List.mem_map.mp member with ⟨old, held, rfl⟩
      have said : [Call.addMove source (String.singleton symbol) target].filterMap
          (Call.moveFrom? old.name) = if source = old.name then [(symbol, target)] else [] := by
        by_cases same : source = old.name <;> simp [Call.moveFrom?, same]
      rw [kept, name_moved, List.filterMap_append, said]
      exact named_moved (told.moves old held) (getD_idxOf targetKnown) (free old held)
    moves_known := by
      intro other given goal member
      rw [kept]
      rcases List.mem_append.mp member with earlier | last
      · exact told.moves_known other given goal earlier
      · cases List.mem_singleton.mp last
        exact ⟨symbol, rfl, sourceKnown, targetKnown⟩ }

/-! ## Calls -/

/-- One call more that is taken says one thing more. -/
theorem run (told : Told calls draft) {call : Call} (taken : call.run draft = .ok next) :
    Told (calls ++ [call]) next := by
  cases call with
  | addSymbol text => exact told.addSymbol taken
  | checkName name =>
    rcases map_const_eq_ok taken with rfl
    exact told.unchanged taken ⟨rfl, rfl, rfl, by rintro source text target ⟨⟩⟩ fun _ => rfl
  | addState name accepting => exact told.addState taken
  | setAccepting name accepting => exact told.setAccepting taken
  | markAccepting names => exact Except.ok.inj taken ▸ told.markAccepting names
  | setStart name => exact told.setStart taken
  | addMove source text target => exact told.addMove taken
  | build =>
    rcases map_const_eq_ok taken with rfl
    exact told.unchanged taken ⟨rfl, rfl, rfl, by rintro source text target ⟨⟩⟩ fun _ => rfl

/-- A draft is what the calls say that were taken; the others leave it. -/
theorem after {history : List Call} (told : Told history draft) (calls : List Call) :
    Told (history ++ draft.taken calls) (draft.after calls) := by
  induction calls generalizing history draft with
  | nil =>
    rw [Draft.taken, List.append_nil]
    exact told
  | cons call rest inductionHypothesis =>
    have step : draft.after (call :: rest) = (call.next draft).after rest := rfl
    rw [step, Draft.taken, Call.next]
    cases result : call.run draft with
    | error fault => exact inductionHypothesis told
    | ok next =>
      dsimp only
      rw [List.append_cons]
      exact inductionHypothesis (told.run result)

end Told
end Draft
end FiniteAutomata
