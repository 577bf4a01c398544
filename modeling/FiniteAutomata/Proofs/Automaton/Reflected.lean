import FiniteAutomata.Proofs.Automaton.History
import FiniteAutomata.Proofs.Automaton.Traceless

namespace FiniteAutomata

/-!
# What a built automaton means

An automaton that is built after calls reflects the calls that were taken: it
has the states and the symbols that were added, in their order, each state with
the flag that was given to it last, the start that was set last, and just the
transitions that were given, each state's in the order in which they were given
first.  Marking answers with the names that it left out.
-/

open Draft (last?)

/-- What a built automaton says of the calls that were taken. -/
structure Reflects (history : List Draft.Call) (automaton : Automaton) : Prop where
  names : automaton.stateNames = history.filterMap Draft.Call.stateName?
  alphabet : automaton.alphabet.map String.singleton = history.filterMap Draft.Call.symbolText?
  flags : ∀ state ∈ automaton.states,
    last? (Draft.Call.flagFor? state.name) history = some state.accepting
  start : automaton.start = (last? Draft.Call.startName? history).bind automaton.indexOf?
  started : automaton.startState?.map State.name = last? Draft.Call.startName? history
  steps : ∀ source text target, Draft.Call.addMove source text target ∈ history ↔
    ∃ symbol, text = String.singleton symbol ∧ ∃ index next,
      automaton.indexOf? source = some index ∧ automaton.indexOf? target = some next ∧
        automaton.step index symbol = some next
  transitions : automaton.transitions = automaton.stateNames.flatMap fun name =>
    (history.filterMap (Draft.Call.moveFrom? name)).eraseDups.map fun move => (name, move)

namespace Draft.Told

variable {history : List Call} {draft : Draft}

/-- The transitions are the moves that were given. -/
theorem mem_transitions_iff (told : Told history draft) {source : String} {symbol : Char}
    {target : String} : (source, symbol, target) ∈ told.proper.automaton.transitions ↔
      Call.addMove source (String.singleton symbol) target ∈ history := by
  have given : ∀ state ∈ draft.states, ((symbol, target) ∈ state.named draft.stateNames ↔
      Call.addMove state.name (String.singleton symbol) target ∈ history) := by
    intro state member
    rw [told.moves state member, List.mem_eraseDups, List.mem_filterMap]
    constructor
    · rintro ⟨call, held, said⟩
      exact Call.moveFrom?_eq_some_iff.mp said ▸ held
    · intro held
      exact ⟨_, held, Call.moveFrom?_eq_some_iff.mpr rfl⟩
  rw [Automaton.mem_transitions_iff]
  constructor
  · rintro ⟨state, member, rfl, named⟩
    exact (given state member).mp named
  · intro held
    rcases told.moves_known _ _ _ held with ⟨_, _, known, _⟩
    rcases List.mem_map.mp known with ⟨state, member, rfl⟩
    exact ⟨state, member, rfl, (given state member).mpr held⟩

theorem start_eq_bind (told : Told history draft) : told.proper.automaton.start =
    (last? Call.startName? history).bind told.proper.automaton.indexOf? := by
  rw [← told.start]
  change draft.start = _
  cases begins : draft.start with
  | none => rfl
  | some index =>
    have inside := told.proper.sound.start_bound index begins
    have entry : draft.stateNames[index]? = some draft.states[index].name := by
      simp [stateNames, inside]
    rw [Option.bind_some, entry]
    exact ((indexOf?_eq_some_iff told.proper.names_distinct).mpr entry).symm

/-- The automaton that a draft is reflects the calls that made the draft. -/
theorem reflects (told : Told history draft) : Reflects history told.proper.automaton where
  names := told.names
  alphabet := told.alphabet
  flags := told.flags
  start := told.start_eq_bind
  started := by
    rw [← told.start, Automaton.startState?]
    change Option.map State.name (draft.start.bind fun index => draft.states[index]?) = _
    simp only [stateNames, List.getElem?_map]
    cases draft.start <;> rfl
  steps := by
    intro source text target
    constructor
    · intro held
      rcases told.moves_known source text target held with ⟨symbol, rfl, _⟩
      have transition := told.mem_transitions_iff.mpr held
      rcases Automaton.names_of_mem_transitions transition with ⟨sourceKnown, targetKnown⟩
      rcases Automaton.exists_position sourceKnown with ⟨index, inside, rfl⟩
      rcases Automaton.exists_position targetKnown with ⟨next, nextInside, rfl⟩
      refine ⟨symbol, rfl, index, next, Automaton.indexOf?_eq_some_iff.mpr ⟨inside, rfl⟩,
        Automaton.indexOf?_eq_some_iff.mpr ⟨nextInside, rfl⟩, ?_⟩
      exact (Automaton.step_eq_some_iff inside).mpr ⟨nextInside, transition⟩
    · rintro ⟨symbol, rfl, index, next, atSource, atTarget, moved⟩
      rcases Automaton.indexOf?_eq_some_iff.mp atSource with ⟨inside, rfl⟩
      rcases Automaton.indexOf?_eq_some_iff.mp atTarget with ⟨_, rfl⟩
      exact told.mem_transitions_iff.mp ((Automaton.step_eq_some_iff inside).mp moved).2
  transitions := by
    rw [Automaton.transitions_eq, Automaton.stateNames, List.flatMap_map]
    refine List.flatMap_congr fun state member => ?_
    rw [← told.moves state member]
    rfl

end Draft.Told

/-- Marking names after calls answers with those that are no state. -/
theorem Fields.respond_markAccepting (calls : List Draft.Call) (names : List String) :
    ((empty.after (calls.map .call)).respond (.call (.markAccepting names))).1 =
      .ok (.texts ((Draft.empty.after calls).unknownNames names)) := by
  have held : empty.after (calls.map .call) = of (Draft.empty.after calls) := by
    conv_rhs => rw [← calls_map_call calls]
    exact after_of .empty _
  rw [held, respond_of (Draft.Proper.empty.after calls)]
  rfl

namespace LooseDraft

/-- The calls that are taken, in their order. -/
def taken (loose : LooseDraft) : List Draft.Call → List Draft.Call
  | [] => []
  | call :: rest =>
    match loose.take call with
    | .ok changed => call :: changed.taken rest
    | .error _ => loose.taken rest

theorem taken_loose (draft : Draft) (calls : List Draft.Call) :
    draft.loose.taken calls = draft.taken calls := by
  induction calls generalizing draft with
  | nil => rfl
  | cons call rest inductionHypothesis =>
    rw [taken, Draft.taken, take_loose]
    cases call.run draft with
    | error fault => exact inductionHypothesis draft
    | ok next => exact congrArg (call :: ·) (inductionHypothesis next)

/-- Whatever is asked of a draft in whatever order, the automaton that is then
built reflects the calls that were taken and nothing else; and marking answers
with just those names that none of these calls has added, each as often as it is
given. -/
theorem after_reflects (calls : List Draft.Call) :
    (∃ automaton, (empty.after calls).finish.result = .ok automaton ∧
      Reflects (empty.taken calls) automaton) ∧
    ∀ names,
      ((Fields.empty.after (calls.map .call)).respond (.call (.markAccepting names))).1 =
        .ok (.texts (names.filter fun name =>
          name ∉ (empty.taken calls).filterMap Draft.Call.stateName?)) ∧
      (empty.after calls).draft.unknownNames names =
        names.filter fun name => name ∉ (empty.taken calls).filterMap Draft.Call.stateName? := by
  have told := Draft.Told.empty.after calls
  rw [List.nil_append] at told
  have plain : empty = Draft.empty.loose := rfl
  rw [plain, after_loose, taken_loose]
  constructor
  · exact ⟨told.proper.automaton, result_finish_loose told.proper, told.reflects⟩
  · intro names
    have bare : (Draft.empty.after calls).loose.draft.unknownNames names =
        (Draft.empty.after calls).unknownNames names :=
      Fields.unknownNames_congr (Draft.stateNames_bare _) names
    have unknown : (Draft.empty.after calls).unknownNames names = names.filter fun name =>
        name ∉ (Draft.empty.taken calls).filterMap Draft.Call.stateName? := by
      rw [← told.names]
      apply List.filter_congr
      intro name _
      rw [Bool.eq_iff_iff]
      simp [← Draft.hasState_iff]
    rw [Fields.respond_markAccepting, bare, unknown]
    exact ⟨rfl, rfl⟩

end LooseDraft
end FiniteAutomata
