import FiniteAutomata.Proofs.Interview.Outcome
import FiniteAutomata.Proofs.Text.Decimal

namespace FiniteAutomata
namespace Interview

/-!
# Answers for a given automaton

An automaton that an interview could have asked for tells the answers that
build it: its sizes, symbols, names and flags, the targets in the order in which
they are asked for, and the start.  Each part of the script is read off its
front and leaves the answers behind it, so the interview takes all of them
without a remark.  The draft comes closer to the automaton with every target
and is the same as the automaton at the end, since no state of either has more
moves than there are symbols.
-/

open Text (isBlank trim)

/-! ## The script -/

def flagAnswer (accepting : Bool) : String :=
  if accepting then "y" else "n"

def stateAnswers (state : State) : List String :=
  [state.name, flagAnswer state.accepting]

/-- The name of the state that a state moves to on a symbol. -/
def targetAnswer (automaton : Automaton) (pair : String × Char) : String :=
  match (automaton.state? pair.1).bind fun state => state.target? pair.2 with
  | some index => automaton.nameAt index
  | none => ""

def startAnswers (automaton : Automaton) : List String :=
  (automaton.startState?.map State.name).toList

/-- The pairs of a state and a symbol in the order in which targets are asked
for. -/
def pairs (automaton : Automaton) : List (String × Char) :=
  automaton.stateNames.flatMap fun name => automaton.alphabet.map fun symbol => (name, symbol)

/-- The answers that build an automaton. -/
def script (automaton : Automaton) : List String :=
  toString automaton.alphabet.length :: (automaton.alphabet.map String.singleton ++
    toString automaton.states.length :: (automaton.states.flatMap stateAnswers ++
      ((pairs automaton).map (targetAnswer automaton) ++ startAnswers automaton)))

/-! ## Conversations without remarks -/

/-- A conversation reads all answers, has no remark on any, and builds an
automaton of a kind. -/
structure Smooth (kind : Automaton → Prop) (transcript : Transcript) : Prop where
  builds : ∃ automaton, transcript.ending = .built automaton ∧ kind automaton
  unused : transcript.unused = []
  quiet : ∀ turn ∈ transcript.turns, turn.isAsk = true

variable {kind : Automaton → Prop} {automaton : Automaton} {draft next : Draft}
variable {rest : List String}

theorem converse_of_accepted {question : Question} {answer : String} {events : List Log.Event}
    {stage : Stage} (taken : question.react draft (trim answer) = .accepted events next stage)
    (rest : List String) : converse draft (.ask question) (answer :: rest) =
      (converse next stage rest).after [.ask (question.prompt draft)] events := by
  rw [converse, taken]

/-- An answer that is taken goes before the others. -/
theorem Smooth.answer {question : Question} {answer : String} {events : List Log.Event}
    {stage : Stage} (taken : question.react draft (trim answer) = .accepted events next stage)
    (later : Smooth kind (converse next stage rest)) :
    Smooth kind (converse draft (.ask question) (answer :: rest)) := by
  rw [converse_of_accepted taken]
  refine ⟨later.builds, later.unused, ?_⟩
  intro turn member
  rcases List.mem_append.mp member with first | others
  · rw [List.mem_singleton.mp first]
    rfl
  · exact later.quiet turn others

theorem Smooth.ask {question : Question} {answer : String} {events : List Log.Event} {stage : Stage}
    (taken : question.react draft answer = .accepted events next stage)
    (trimmed : trim answer = answer) (later : Smooth kind (converse next stage rest)) :
    Smooth kind (converse draft (.ask question) (answer :: rest)) := by
  rw [← trimmed] at taken
  exact Smooth.answer taken later

theorem smooth_conclude (proper : draft.Proper) (fits : kind proper.automaton)
    (events : List Log.Event) : Smooth kind (Transcript.conclude draft events []) := by
  rw [Transcript.conclude, Draft.finish, proper.build]
  exact ⟨⟨_, rfl, fits⟩, rfl, fun _ member => by cases member⟩

theorem trim_eq_self {text : String} (trimmed : Text.trimmed text.toList = text.toList) :
    trim text = text := by
  rw [trim, trimmed, String.ofList_toList]

/-! ## Answers that are taken -/

theorem count?_toString {number : Nat} (short : (toString number).length ≤ Text.digitLimit) :
    count? (toString number) = some number := by
  rw [count?, Text.wholeNumber?_toString short]
  simp

theorem react_symbolCount {size : Nat} (short : (toString size).length ≤ Text.digitLimit) :
    Question.symbolCount.react draft (toString size) = .accepted [] draft (.symbols draft size) := by
  rw [Question.react, count?_toString short]

theorem react_stateCount {size : Nat} (short : (toString size).length ≤ Text.digitLimit) :
    Question.stateCount.react draft (toString size) = .accepted [] draft (.states draft size) := by
  rw [Question.react, count?_toString short]

theorem react_symbol {symbol : Char} {size : Nat} (fresh : symbol ∉ draft.alphabet)
    (added : draft.addSymbol (String.singleton symbol) = .ok next) :
    (Question.symbol size).react draft (String.singleton symbol) =
      .accepted [] next (.symbols next size) := by
  have unknown : ¬ draft.hasSymbol (String.singleton symbol) = true :=
    fun old => fresh (hasSymbol_singleton_iff.mp old)
  simp [Question.react, unknown, added, goOn]

theorem react_stateName {name : String} {size : Nat} (fits : NameFits name)
    (fresh : name ∉ draft.stateNames) : (Question.stateName size).react draft name =
      .accepted [] draft (.ask (.acceptance size name)) := by
  have unknown : ¬ draft.hasState name = true := fun old => fresh (Draft.hasState_iff.mp old)
  simp [Question.react, fits.nonempty, unknown, checkName_eq_ok_iff.mpr fits]

theorem react_acceptance {name : String} {accepting : Bool} {size : Nat}
    (added : draft.addState name accepting = .ok next) :
    (Question.acceptance size name).react draft (flagAnswer accepting) =
      .accepted [] next (.states next size) := by
  have read : yesOrNo? (flagAnswer accepting) = some accepting := by
    cases accepting <;> rfl
  simp [Question.react, read, added, goOn]

theorem react_target {source target : String} {symbol : Char} {later : List (String × Char)}
    (known : target ∈ draft.stateNames)
    (added : draft.addMove source (String.singleton symbol) target = .ok next) :
    (Question.target source symbol later).react draft target =
      .accepted (Draft.moveEvents source (String.singleton symbol) target) next
        (.targets next later) := by
  simp [Question.react, Draft.hasState_iff.mpr known, Draft.move, added]

theorem react_startName {name : String} (set : draft.setStart name = .ok next) :
    Question.startName.react draft name = .accepted [] next (.done []) := by
  have known := (Draft.setStart_eq_ok_iff.mp set).1
  simp [Question.react, Draft.hasState_iff.mpr known, set, goOn]

/-! ## Symbols -/

/-- The draft that has states but no moves and no start. -/
def declared (alphabet : List Char) (states : List State) : Draft :=
  ⟨alphabet, states.map fun state => { state with moves := [] }, none⟩

theorem stateNames_declared (alphabet : List Char) (states : List State) :
    (declared alphabet states).stateNames = states.map State.name := by
  simp [declared, Draft.stateNames]

/-- The symbols that are left are taken one by one. -/
theorem smooth_symbols (known : List Char) {left : List Char} (distinct : (known ++ left).Nodup)
    (visible : ∀ symbol ∈ left, isBlank symbol = false)
    (later : Smooth kind (converse (declared (known ++ left) []) (.ask .stateCount) rest)) :
    Smooth kind (converse (declared known []) (.symbols (declared known []) (known ++ left).length)
      (left.map String.singleton ++ rest)) := by
  induction left generalizing known with
  | nil => simpa [Stage.symbols, declared] using later
  | cons symbol others inductionHypothesis =>
    rcases List.forall_mem_cons.mp visible with ⟨first, behind⟩
    have fresh : symbol ∉ known := fun old =>
      (List.nodup_append.mp distinct).2.2 symbol old symbol List.mem_cons_self rfl
    rw [List.append_cons] at distinct later ⊢
    have asks : Stage.symbols (declared known []) (known ++ [symbol] ++ others).length =
        .ask (.symbol (known ++ [symbol] ++ others).length) := by
      rw [Stage.symbols, if_pos (by simp [declared])]
    rw [asks]
    have added : (declared known []).addSymbol (String.singleton symbol) =
        .ok (declared (known ++ [symbol]) []) :=
      Draft.addSymbol_eq_ok_iff.mpr ⟨symbol, rfl, fresh, rfl⟩
    exact Smooth.ask (react_symbol fresh added)
      (trim_eq_self (by simpa using Text.trimmed_singleton first))
      (inductionHypothesis _ distinct behind later)

/-! ## States -/

theorem trim_flagAnswer (accepting : Bool) : trim (flagAnswer accepting) = flagAnswer accepting := by
  cases accepting <;> rfl

/-- The states that are left are taken one by one, each with its flag. -/
theorem smooth_states {alphabet : List Char} (known : List State) {left : List State}
    (distinct : ((known ++ left).map State.name).Nodup)
    (fits : ∀ state ∈ left, NameFits state.name)
    (later : Smooth kind (converse (declared alphabet (known ++ left))
      (.targets (declared alphabet (known ++ left))
        (edgeQuestions (declared alphabet (known ++ left)))) rest)) :
    Smooth kind (converse (declared alphabet known)
      (.states (declared alphabet known) (known ++ left).length)
        (left.flatMap stateAnswers ++ rest)) := by
  induction left generalizing known with
  | nil => simpa [Stage.states, declared] using later
  | cons state others inductionHypothesis =>
    rcases List.forall_mem_cons.mp fits with ⟨first, behind⟩
    have fresh : state.name ∉ (declared alphabet known).stateNames := by
      rw [stateNames_declared]
      rw [List.map_append, List.nodup_append] at distinct
      exact fun old => distinct.2.2 state.name old state.name List.mem_cons_self rfl
    rw [List.append_cons] at distinct later ⊢
    have asks : Stage.states (declared alphabet known) (known ++ [state] ++ others).length =
        .ask (.stateName (known ++ [state] ++ others).length) := by
      rw [Stage.states, if_pos (by simp [declared])]
    rw [asks]
    have added : (declared alphabet known).addState state.name state.accepting =
        .ok (declared alphabet (known ++ [state])) :=
      Draft.addState_eq_ok_iff.mpr ⟨first, fresh, by simp [declared]⟩
    exact Smooth.ask (react_stateName first fresh) (trim_eq_self first.trimmed)
      (Smooth.ask (react_acceptance added) (trim_flagAnswer state.accepting)
        (inductionHypothesis _ distinct behind later))

/-! ## Targets -/

/-- The draft has the states of the automaton in their order, and no moves that
the automaton does not have. -/
structure Toward (automaton : Automaton) (draft : Draft) : Prop where
  proper : draft.Proper
  alphabet : draft.alphabet = automaton.alphabet
  names : draft.stateNames = automaton.stateNames
  states : ∀ state ∈ draft.states, ∃ other ∈ automaton.states, state.name = other.name ∧
    state.accepting = other.accepting ∧ state.moves ⊆ other.moves

theorem toward_declared (askable : Askable automaton) :
    Toward automaton (declared automaton.alphabet automaton.states) where
  proper :=
    { sound := by
        have sound := automaton.sound
        refine ⟨?_, ?_, sound.alphabet_distinct, ?_, ?_, ?_⟩
        · simpa [declared] using sound.names_nonempty
        · simpa [declared, Function.comp_def] using sound.names_distinct
        · simp [declared]
        · simp [declared]
        · simp [declared]
      fits := by
        intro name known
        rw [stateNames_declared] at known
        exact checkName_eq_ok_iff.mp (askable.names name known) }
  alphabet := rfl
  names := stateNames_declared _ _
  states := by
    intro state member
    rcases List.mem_map.mp member with ⟨other, held, rfl⟩
    exact ⟨other, held, rfl, rfl, List.nil_subset _⟩

/-- The answer for a pair is the target of its move. -/
theorem exists_targetAnswer (complete : automaton.isComplete = true) {pair : String × Char}
    (known : pair.1 ∈ automaton.stateNames) (among : pair.2 ∈ automaton.alphabet) :
    ∃ state ∈ automaton.states, state.name = pair.1 ∧ ∃ index < automaton.states.length,
      (pair.2, index) ∈ state.moves ∧ targetAnswer automaton pair = automaton.nameAt index := by
  rcases Automaton.exists_position known with ⟨position, inside, called⟩
  have member := List.getElem_mem inside
  have used := Automaton.isComplete_iff.mp complete _ member pair.2 among
  cases leads : automaton.states[position].target? pair.2 with
  | none => exact absurd used (State.target?_eq_none_iff.mp leads)
  | some index =>
    have move := State.mem_moves_of_target? leads
    have found : automaton.state? pair.1 = some automaton.states[position] := by
      rw [Automaton.state?, Automaton.indexOf?_eq_some_iff.mpr ⟨inside, called⟩, Option.bind_some,
        List.getElem?_eq_getElem inside]
    refine ⟨_, member, ?_, index, automaton.sound.targets_bound _ member _ move, move, ?_⟩
    · rw [← called, Automaton.nameAt_eq_getElem inside]
    · rw [targetAnswer, found, Option.bind_some, leads]

namespace Toward

theorem length_states (toward : Toward automaton draft) :
    draft.states.length = automaton.states.length := by
  simpa [Draft.stateNames, Automaton.stateNames] using congrArg List.length toward.names

/-- The next target can be given, and it is one of the automaton. -/
theorem exists_addMove (toward : Toward automaton draft) (askable : Askable automaton)
    {pair : String × Char} (known : pair.1 ∈ automaton.stateNames)
    (among : pair.2 ∈ automaton.alphabet) :
    targetAnswer automaton pair ∈ draft.stateNames ∧ ∃ next,
      draft.addMove pair.1 (String.singleton pair.2) (targetAnswer automaton pair) = .ok next ∧
        next.start = draft.start ∧ Toward automaton next := by
  rcases exists_targetAnswer askable.complete known among with
    ⟨state, member, called, index, inside, move, answer⟩
  have targetKnown : targetAnswer automaton pair ∈ draft.stateNames := by
    rw [toward.names, answer]
    exact Automaton.nameAt_mem inside
  have position : draft.stateNames.idxOf (targetAnswer automaton pair) = index := by
    rw [toward.names, answer, Automaton.idxOf_nameAt inside]
  -- The state of the draft that is asked about has moves of this one state only.
  have below : ∀ held ∈ draft.states, held.name = pair.1 →
      held.accepting = state.accepting ∧ held.moves ⊆ state.moves := by
    intro held heldMember same
    rcases toward.states held heldMember with ⟨other, otherMember, name, flag, moves⟩
    rcases Automaton.eq_of_name_eq otherMember member (name.symm.trans (same.trans called.symm))
    exact ⟨flag, moves⟩
  have unopposed : draft.Unopposed pair.1 pair.2 index := by
    intro held heldMember same existing leads
    have old := (below held heldMember same).2 (State.mem_moves_of_target? leads)
    have distinct := automaton.sound.symbols_distinct state member
    exact (Prod.mk.inj (List.inj_on_of_nodup_map distinct old move rfl)).2
  have added := (Draft.addMove_eq_ok_iff toward.proper.names_distinct).mpr
    ⟨pair.2, rfl, toward.names ▸ known, targetKnown, position ▸ unopposed, rfl⟩
  refine ⟨targetKnown, _, added, rfl, toward.proper.addMove added, toward.alphabet, ?_, ?_⟩
  · rw [Draft.stateNames_mapStates draft (Draft.name_moved _ _ _), toward.names]
  · intro changed changedMember
    rcases List.mem_map.mp changedMember with ⟨held, heldMember, rfl⟩
    rw [Draft.name_moved, Draft.accepting_moved, position]
    unfold Draft.moved
    split
    · rename_i here
      rcases below held heldMember here.1 with ⟨flag, moves⟩
      refine ⟨state, member, here.1.trans called.symm, flag, ?_⟩
      exact List.append_subset.mpr ⟨moves, List.cons_subset.mpr ⟨move, List.nil_subset _⟩⟩
    · exact toward.states held heldMember

end Toward

/-- The targets that are left are taken one by one. -/
theorem smooth_targets (askable : Askable automaton) {pending : List (String × Char)}
    (asked : ∀ pair ∈ pending, pair.1 ∈ automaton.stateNames ∧ pair.2 ∈ automaton.alphabet)
    (toward : Toward automaton draft) (begins : draft.start = none)
    (later : ∀ final : Draft, Toward automaton final → final.start = none →
      Smooth kind (converse final (.afterTargets final) rest)) :
    Smooth kind (converse draft (.targets draft pending)
      (pending.map (targetAnswer automaton) ++ rest)) := by
  induction pending generalizing draft with
  | nil => exact later draft toward begins
  | cons pair others inductionHypothesis =>
    rcases List.forall_mem_cons.mp asked with ⟨⟨known, among⟩, behind⟩
    rcases toward.exists_addMove askable known among with ⟨target, next, added, kept, closer⟩
    exact Smooth.ask (react_target target added) (trim_eq_self (toward.proper.fits _ target).trimmed)
      (inductionHypothesis behind closer (kept.trans begins))

/-! ## The start -/

/-- What a script builds: the start is that of the automaton. -/
def Arrived (automaton built : Automaton) : Prop :=
  ∃ final, ∃ toward : Toward automaton final, final.start = automaton.start ∧
    built = toward.proper.automaton

/-- The start is asked for only if there are states. -/
theorem smooth_start (askable : Askable automaton) (toward : Toward automaton draft)
    (begins : draft.start = none) : Smooth (Arrived automaton)
      (converse draft (.afterTargets draft) (startAnswers automaton)) := by
  have size := toward.length_states
  rw [Stage.afterTargets, startAnswers, Automaton.startState?]
  cases starts : automaton.start with
  | none =>
    have empty : draft.states = [] := by
      rw [← List.length_eq_zero_iff, size, askable.start.mp starts, List.length_nil]
    rw [empty]
    exact smooth_conclude toward.proper ⟨draft, toward, begins.trans starts.symm, rfl⟩ _
  | some index =>
    have inside := automaton.sound.start_bound index starts
    have present : ¬ draft.states.isEmpty = true := by
      rw [List.isEmpty_iff, ← List.length_eq_zero_iff]
      omega
    have known : automaton.nameAt index ∈ draft.stateNames := by
      rw [toward.names]
      exact Automaton.nameAt_mem inside
    have set : draft.setStart (automaton.nameAt index) = .ok { draft with start := some index } := by
      refine Draft.setStart_eq_ok_iff.mpr ⟨known, ?_⟩
      rw [toward.names, Automaton.idxOf_nameAt inside]
    have closer : Toward automaton { draft with start := some index } :=
      ⟨toward.proper.setStart set, toward.alphabet, toward.names, toward.states⟩
    rw [if_neg present, Option.bind_some, List.getElem?_eq_getElem inside, Option.map_some,
      ← Automaton.nameAt_eq_getElem inside]
    exact Smooth.ask (react_startName set) (trim_eq_self (toward.proper.fits _ known).trimmed)
      (smooth_conclude closer.proper ⟨_, closer, starts.symm, rfl⟩ [])

/-! ## The automaton that is built -/

/-- A state of an automaton that could have been asked for has one move for
each symbol. -/
theorem Askable.symbols_perm (askable : Askable automaton) {state : State}
    (member : state ∈ automaton.states) : (state.moves.map Prod.fst).Perm automaton.alphabet := by
  rw [List.perm_ext_iff_of_nodup (automaton.sound.symbols_distinct state member) askable.distinct]
  intro symbol
  constructor
  · intro used
    rw [← State.map_fst_named automaton.stateNames] at used
    rcases List.mem_map.mp used with ⟨move, named, rfl⟩
    exact askable.within (state.name, move)
      (Automaton.mem_transitions_iff.mpr ⟨state, member, rfl, named⟩)
  · exact Automaton.isComplete_iff.mp askable.complete state member symbol

/-- A script builds the automaton up to the order of moves, since every state
that is built has as many moves as the automaton's and no others. -/
theorem Arrived.same {built : Automaton} (arrived : Arrived automaton built)
    (askable : Askable automaton) (askableBuilt : Askable built) : built.same automaton = true := by
  rcases arrived with ⟨final, toward, start, rfl⟩
  refine Automaton.same_iff.mpr ⟨?_, toward.alphabet, start⟩
  refine List.forall₂_iff_get.mpr ⟨toward.length_states, ?_⟩
  intro index (inside : index < final.states.length) otherInside
  have member := List.get_mem final.states ⟨index, inside⟩
  have otherMember := List.get_mem automaton.states ⟨index, otherInside⟩
  have sameName := State.name_eq_of_map_eq toward.names inside otherInside
  rcases toward.states _ member with ⟨other, held, name, flag, moves⟩
  rcases Automaton.eq_of_name_eq held otherMember (name.symm.trans sameName)
  refine ⟨name, flag, ?_⟩
  have distinct := List.Nodup.of_map _ (toward.proper.sound.symbols_distinct _ member)
  have full := (askableBuilt.symbols_perm member).length_eq
  have otherFull := (askable.symbols_perm otherMember).length_eq
  rw [List.length_map] at full otherFull
  rw [← toward.alphabet] at otherFull
  exact (List.subperm_of_subset distinct moves).perm_of_length_le
    (Nat.le_of_eq (otherFull.trans full.symm))

/-- The interview takes the whole script and never has a remark. -/
theorem smooth_script (askable : Askable automaton)
    (symbolsShort : (toString automaton.alphabet.length).length ≤ Text.digitLimit)
    (statesShort : (toString automaton.states.length).length ≤ Text.digitLimit) :
    Smooth (Arrived automaton) (interview (script automaton)) := by
  have fits : ∀ state ∈ automaton.states, NameFits state.name := fun state member =>
    checkName_eq_ok_iff.mp (askable.names _ (Automaton.name_mem_stateNames member))
  have toward := toward_declared askable
  have asked : ∀ pair ∈ edgeQuestions (declared automaton.alphabet automaton.states),
      pair.1 ∈ automaton.stateNames ∧ pair.2 ∈ automaton.alphabet := by
    intro pair member
    rw [← toward.names]
    exact mem_edgeQuestions_iff.mp member
  have questions : pairs automaton =
      edgeQuestions (declared automaton.alphabet automaton.states) := by
    rw [edgeQuestions, stateNames_declared]
    rfl
  refine Smooth.ask (react_symbolCount symbolsShort) (Text.trim_toString _) ?_
  refine smooth_symbols [] askable.distinct askable.visible ?_
  refine Smooth.ask (react_stateCount statesShort) (Text.trim_toString _) ?_
  refine smooth_states [] automaton.sound.names_distinct fits ?_
  rw [questions]
  exact smooth_targets askable asked toward rfl fun final => smooth_start askable

/-- Whatever the answers are, an interview builds an automaton that could have
been asked for, or it asks one question more than there are answers; it never
fails.  And every automaton that could have been asked for, with sizes that are
not too long to be read, is built from its own script, which is read to its end
without a remark. -/
theorem interview_outcome :
    (∀ answers, (∃ automaton, (interview answers).ending = .built automaton ∧
        Askable automaton ∧
          (interview answers).asked + (interview answers).unused.length = answers.length) ∨
      ((interview answers).ending = .outOfAnswers ∧ (interview answers).unused = [] ∧
        (interview answers).asked = answers.length + 1)) ∧
    ∀ automaton, Askable automaton →
      (toString automaton.alphabet.length).length ≤ Text.digitLimit →
      (toString automaton.states.length).length ≤ Text.digitLimit →
      ∃ built, (interview (script automaton)).ending = .built built ∧
        built.same automaton = true ∧ (interview (script automaton)).unused = [] ∧
          ∀ turn ∈ (interview (script automaton)).turns, turn.isAsk = true := by
  refine ⟨interview_ends, fun automaton askable symbolsShort statesShort => ?_⟩
  rcases smooth_script askable symbolsShort statesShort with
    ⟨⟨built, ends, arrived⟩, unused, quiet⟩
  rcases interview_ends (script automaton) with ⟨other, otherEnds, askableBuilt, _⟩ | ⟨out, _⟩
  · cases ends.symm.trans otherEnds
    exact ⟨built, ends, arrived.same askable askableBuilt, unused, quiet⟩
  · cases ends.symm.trans out

/-- Two states that count a symbol modulo two, with moves that are not in the
order of the alphabet. -/
def parity : Automaton :=
  ⟨[⟨"even", true, [('y', 0), ('x', 1)]⟩, ⟨"odd", false, [('x', 0), ('y', 1)]⟩], ['x', 'y'],
    some 0, by constructor <;> decide⟩

theorem interview_outcome_parity : Askable parity ∧
    script parity = ["2", "x", "y", "2", "even", "y", "odd", "n", "odd", "even", "even", "odd",
      "even"] ∧
    ∃ built, (interview (script parity)).ending = .built built ∧ built.same parity = true ∧
      (interview (script parity)).unused = [] ∧
        ∀ turn ∈ (interview (script parity)).turns, turn.isAsk = true := by
  have visible : ∀ symbol ∈ ['x', 'y'], isBlank symbol = false :=
    List.forall_mem_cons.mpr ⟨by decide, List.forall_mem_singleton.mpr (by decide)⟩
  have askable : Askable parity :=
    ⟨by decide, visible, by decide, by decide, by decide, by decide⟩
  exact ⟨askable, by decide, interview_outcome.2 parity askable (by decide) (by decide)⟩

end Interview
end FiniteAutomata
