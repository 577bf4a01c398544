import FiniteAutomata.Automaton.LooseDraft
import FiniteAutomata.Proofs.Automaton.Proper

namespace FiniteAutomata

/-!
# Loose drafts of plain values

A loose draft keeps its flags and the texts of its symbols beside a draft whose
own flags are never set.  Given only texts and flags it mirrors a plain draft:
each call is taken by both or refused by both for the same fault, and both are
built to the same automaton.  So what is known of plain drafts holds of loose
ones as well.
-/

namespace LooseDraft

/-! ## Calls with plain values -/

/-- The loose draft that a call with plain values gives, or why the call is
refused. -/
def take (loose : LooseDraft) : Draft.Call → Except LooseFailure LooseDraft
  | .addSymbol text => loose.addSymbol (.string text)
  | .checkName name => ((checkName name).map fun _ => loose).mapError .fault
  | .addState name accepting => (loose.addState name (.bool accepting)).mapError .fault
  | .setAccepting name accepting => (loose.setAccepting name (.bool accepting)).mapError .fault
  | .markAccepting names => .ok (loose.markAccepting names)
  | .setStart name => (loose.setStart name).mapError .fault
  | .addMove source text target => (loose.move source (.string text) target).result
  | .build => loose.finish.result.map fun _ => loose

/-- The loose draft after a call: the old one if the call is refused. -/
def next (loose : LooseDraft) (call : Draft.Call) : LooseDraft :=
  match loose.take call with
  | .ok changed => changed
  | .error _ => loose

/-- The loose draft after calls in their order. -/
def after (loose : LooseDraft) (calls : List Draft.Call) : LooseDraft :=
  calls.foldl next loose

end LooseDraft

/-! ## Drafts without flags -/

/-- Changing an entry is seen through a map as a change of the image. -/
theorem map_modify {α β : Type} {view : α → β} {change : α → α} (seen : β → β)
    (commutes : ∀ value, view (change value) = seen (view value)) (values : List α) (index : Nat) :
    (values.modify index change).map view = (values.map view).modify index seen := by
  apply List.ext_getElem?
  intro other
  rw [List.getElem?_map, List.getElem?_modify, List.getElem?_modify, List.getElem?_map]
  cases values[other]? with
  | none => rfl
  | some value =>
    by_cases here : index = other
    · simp [here, commutes]
    · simp [here]

theorem map_modify_of_eq {α β : Type} {view : α → β} {change : α → α}
    (same : ∀ value, view (change value) = view value) (values : List α) (index : Nat) :
    (values.modify index change).map view = values.map view := by
  rw [map_modify id same, List.modify_id]

namespace Draft

/-- A state without its flag. -/
def unflagged (state : State) : State :=
  { state with accepting := false }

/-- A draft without its flags. -/
def bare (draft : Draft) : Draft :=
  draft.mapStates unflagged

variable {draft next : Draft}

/-! ## Steps of a draft without its flags -/

theorem stateNames_bare (draft : Draft) : draft.bare.stateNames = draft.stateNames :=
  stateNames_mapStates draft fun _ => rfl

theorem indexOf?_bare (draft : Draft) (name : String) :
    draft.bare.indexOf? name = draft.indexOf? name := by
  rw [indexOf?_eq_idxOf?, indexOf?_eq_idxOf?, stateNames_bare]

theorem require_bare (draft : Draft) (name : String) :
    draft.bare.require name = draft.require name := by
  rw [require, require, indexOf?_bare]

theorem target?_bare (draft : Draft) (index : Nat) (symbol : Char) :
    draft.bare.target? index symbol = draft.target? index symbol := by
  simp only [target?, bare, mapStates, List.getElem?_map]
  cases draft.states[index]? <;> rfl

theorem nameAt_bare (draft : Draft) (index : Nat) :
    draft.bare.nameAt index = draft.nameAt index := by
  simp only [nameAt, bare, mapStates, List.getElem?_map]
  cases draft.states[index]? <;> rfl

theorem bare_updateState {change : State → State}
    (commutes : ∀ state, unflagged (change state) = change (unflagged state)) (draft : Draft)
    (index : Nat) : (draft.updateState index change).bare = draft.bare.updateState index change :=
  congrArg (fun states => { draft with states := states })
    (map_modify change commutes draft.states index)

theorem bare_updateState_flag (draft : Draft) (index : Nat) (flag : Bool) :
    (draft.updateState index fun state => { state with accepting := flag }).bare = draft.bare :=
  congrArg (fun states => { draft with states := states })
    (map_modify_of_eq (by intro state; rfl) draft.states index)

theorem addSymbol_bare (draft : Draft) (text : String) :
    draft.bare.addSymbol text = (draft.addSymbol text).map bare := by
  have alphabet : draft.bare.alphabet = draft.alphabet := rfl
  simp only [addSymbol, alphabet]
  split
  · split <;> rfl
  · rfl

theorem addState_bare (draft : Draft) (name : String) (accepting : Bool) :
    draft.bare.addState name false = (draft.addState name accepting).map bare := by
  have known : draft.bare.hasState name = draft.hasState name := by
    rw [hasState, hasState, indexOf?_bare]
  simp only [addState, known]
  split
  · rfl
  · split
    · rfl
    · simp [Except.map, bare, mapStates, unflagged]

theorem setStart_bare (draft : Draft) (name : String) :
    draft.bare.setStart name = (draft.setStart name).map bare := by
  simp only [setStart, require_bare]
  cases draft.require name <;> rfl

theorem addMove_bare (draft : Draft) (source text target : String) :
    draft.bare.addMove source text target = (draft.addMove source text target).map bare := by
  simp only [addMove, require_bare, indexOf?_bare, target?_bare, nameAt_bare]
  split
  · split
    · rfl
    · split
      · rfl
      · split
        · split <;> rfl
        · rw [Except.map, bare_updateState]
          intro state
          rfl
  · rfl

/-! ## The loose draft of a draft -/

/-- The flags of the states as a loose draft keeps them. -/
def flagValues (draft : Draft) : List Value :=
  draft.states.map fun state => .bool state.accepting

/-- The loose draft that holds what a draft holds. -/
def loose (draft : Draft) : LooseDraft where
  draft := draft.bare
  symbols := draft.alphabet.map fun symbol => .string (String.singleton symbol)
  flags := draft.flagValues

/-- The outcome of a call of a loose draft that holds what a draft holds. -/
def looseResult (result : Except Fault Draft) : Except LooseFailure LooseDraft :=
  (result.map loose).mapError .fault

theorem loose_updateState_flag (draft : Draft) (index : Nat) (flag : Bool) :
    (draft.updateState index fun state => { state with accepting := flag }).loose =
      { draft.loose with flags := draft.flagValues.set index (.bool flag) } := by
  have flags : (draft.updateState index fun state => { state with accepting := flag }).flagValues =
      draft.flagValues.set index (.bool flag) := by
    rw [List.set_eq_modify]
    exact map_modify (fun _ => Value.bool flag) (by intro state; rfl) draft.states index
  rw [loose, bare_updateState_flag, flags]
  rfl

/-- A move changes neither the alphabet nor the flags. -/
theorem loose_of_addMove {source text target : String}
    (added : draft.addMove source text target = .ok next) :
    next.loose = { draft.loose with draft := next.bare } := by
  have kept : ∀ index move, (draft.updateState index fun state =>
      { state with moves := state.moves ++ [move] }).flagValues = draft.flagValues :=
    fun index move => map_modify_of_eq (by intro state; rfl) draft.states index
  unfold addMove at added
  repeat' split at added
  all_goals cases added
  · rfl
  · rw [loose, kept]
    rfl

end Draft

namespace LooseDraft

open Draft (loose looseResult)

variable (draft : Draft)

/-! ## Calls -/

theorem addSymbol_loose (text : String) :
    draft.loose.addSymbol (.string text) = looseResult (draft.addSymbol text) := by
  have parts : draft.loose.draft = draft.bare := rfl
  rw [addSymbol, parts, Draft.addSymbol_bare]
  cases added : draft.addSymbol text with
  | error fault => rfl
  | ok next =>
    rcases Draft.addSymbol_eq_ok_iff.mp added with ⟨symbol, rfl, _, rfl⟩
    simp [looseResult, loose, Except.map, Except.mapError, Draft.flagValues]

theorem addState_loose (name : String) (accepting : Bool) :
    (draft.loose.addState name (.bool accepting)).mapError .fault =
      looseResult (draft.addState name accepting) := by
  have parts : draft.loose.draft = draft.bare := rfl
  rw [addState, parts, Draft.addState_bare draft name accepting]
  cases added : draft.addState name accepting with
  | error fault => rfl
  | ok next =>
    rcases Draft.addState_eq_ok_iff.mp added with ⟨_, _, rfl⟩
    simp [looseResult, loose, Except.map, Except.mapError, Draft.flagValues]

theorem setAccepting_loose (name : String) (accepting : Bool) :
    (draft.loose.setAccepting name (.bool accepting)).mapError .fault =
      looseResult (draft.setAccepting name accepting) := by
  have parts : draft.loose.draft = draft.bare := rfl
  rw [setAccepting, Draft.setAccepting, parts, Draft.require_bare]
  cases draft.require name with
  | error fault => rfl
  | ok index => exact congrArg Except.ok (Draft.loose_updateState_flag draft index accepting).symm

theorem markAccepting_loose (names : List String) :
    draft.loose.markAccepting names = (draft.markAccepting names).loose := by
  induction names generalizing draft with
  | nil => rfl
  | cons name rest inductionHypothesis =>
    have parts : draft.loose.draft = draft.bare := rfl
    rw [markAccepting, Draft.markAccepting, parts, Draft.indexOf?_bare]
    cases draft.indexOf? name with
    | none => exact inductionHypothesis draft
    | some index =>
      dsimp only
      rw [← inductionHypothesis, Draft.loose_updateState_flag]
      rfl

theorem setStart_loose (name : String) :
    (draft.loose.setStart name).mapError .fault = looseResult (draft.setStart name) := by
  have parts : draft.loose.draft = draft.bare := rfl
  rw [setStart, parts, Draft.setStart_bare]
  cases set : draft.setStart name with
  | error fault => rfl
  | ok next =>
    rcases Draft.setStart_eq_ok_iff.mp set with ⟨_, rfl⟩
    rfl

theorem move_loose (source text target : String) :
    (draft.loose.move source (.string text) target).result =
      looseResult (draft.addMove source text target) := by
  have parts : draft.loose.draft = draft.bare := rfl
  unfold move Log.Reported.andThen Log.Reported.widen
  dsimp only
  rw [Draft.move_result, parts, Draft.addMove_bare]
  cases added : draft.addMove source text target with
  | error fault => rfl
  | ok next =>
    rw [looseResult, Except.map, Except.map, Draft.loose_of_addMove added]
    rfl

/-- Flags that were taken from states go back to them. -/
theorem flagged_unflagged (states : List State) :
    flagged (states.map Draft.unflagged) (states.map fun state => .bool state.accepting) =
      .ok states := by
  induction states with
  | nil => rfl
  | cons state rest inductionHypothesis =>
    rw [List.map_cons, List.map_cons, flagged, inductionHypothesis]
    rfl

theorem oddSymbol?_of_texts (texts : List String) :
    oddSymbol? (texts.map Value.string) = none := by
  simp [oddSymbol?]

theorem finish_loose : draft.loose.finish = draft.finish.widen .fault := by
  have symbols : draft.loose.symbols =
      (draft.alphabet.map String.singleton).map Value.string := by
    rw [List.map_map]
    rfl
  have states : flagged draft.loose.draft.states draft.loose.flags = .ok draft.states :=
    flagged_unflagged draft.states
  rw [finish, states]
  dsimp only
  rw [symbols, oddSymbol?_of_texts]
  rfl

/-- The loose draft of a proper draft is built to the same automaton. -/
theorem result_finish_loose {draft : Draft} (proper : draft.Proper) :
    draft.loose.finish.result = .ok proper.automaton := by
  rw [finish_loose, Draft.finish, proper.build]
  rfl

/-- A call with plain values does to the loose draft of a draft what it does to
the draft. -/
theorem take_loose (call : Draft.Call) : draft.loose.take call = looseResult (call.run draft) := by
  cases call with
  | addSymbol text => exact addSymbol_loose draft text
  | checkName name =>
    simp only [take, Draft.Call.run]
    cases checkName name <;> rfl
  | addState name accepting => exact addState_loose draft name accepting
  | setAccepting name accepting => exact setAccepting_loose draft name accepting
  | markAccepting names => exact congrArg Except.ok (markAccepting_loose draft names)
  | setStart name => exact setStart_loose draft name
  | addMove source text target => exact move_loose draft source text target
  | build =>
    simp only [take, Draft.Call.run, finish_loose, Draft.finish]
    cases draft.build <;> rfl

theorem next_loose (call : Draft.Call) : draft.loose.next call = (call.next draft).loose := by
  rw [next, take_loose, Draft.Call.next]
  cases call.run draft <;> rfl

/-- Calls with plain values do to an empty loose draft what they do to an empty
draft. -/
theorem after_loose (calls : List Draft.Call) :
    draft.loose.after calls = (draft.after calls).loose := by
  induction calls generalizing draft with
  | nil => rfl
  | cons call rest inductionHypothesis =>
    have step : draft.loose.after (call :: rest) = (draft.loose.next call).after rest := rfl
    rw [step, next_loose, inductionHypothesis]
    rfl

end LooseDraft
end FiniteAutomata
