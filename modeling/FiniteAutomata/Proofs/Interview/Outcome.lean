import FiniteAutomata.Proofs.Interview.Solid
import FiniteAutomata.Proofs.Automaton.NameView
import Mathlib.Data.List.ProdSigma

namespace FiniteAutomata
namespace Interview

/-!
# How interviews end

What an answer is acted on with was checked before: a symbol and a name are
new when they are added, and a pair of a state and a symbol has no move until
its target is asked for.  Each stage of an interview meets a condition on the
draft that says so, and whatever is answered, the answer is either turned down
or leads to a stage that meets its own condition.  So no answer makes an
interview fail: it builds an automaton, or the answers run out.

At the end all targets were asked for and the start too if there are states.
-/

open Text (isBlank trim)

/-! ## What a stage can rely on -/

/-- No state has moves yet. -/
def Unmoved (draft : Draft) : Prop :=
  ∀ state ∈ draft.states, state.moves = []

/-- The states have moves for the symbols of the alphabet and for no others,
but none for the pairs that are still to be asked for. -/
structure Filled (draft : Draft) (pending : List (String × Char)) : Prop where
  distinct : pending.Nodup
  asked : ∀ pair ∈ pending, pair.1 ∈ draft.stateNames ∧ pair.2 ∈ draft.alphabet
  moves : ∀ state ∈ draft.states, ∀ symbol, symbol ∈ state.moves.map Prod.fst ↔
    symbol ∈ draft.alphabet ∧ (state.name, symbol) ∉ pending

/-- All targets were asked for, and the start if there are states. -/
structure Finished (draft : Draft) : Prop where
  start : draft.start = none ↔ draft.states = []
  filled : Filled draft []

/-- What the draft meets when a question is asked. -/
def Question.Meets (draft : Draft) : Question → Prop
  | .acceptance _ name => Unmoved draft ∧ NameFits name ∧ name ∉ draft.stateNames
  | .target source letter later => Filled draft ((source, letter) :: later)
  | .startName => draft.states ≠ [] ∧ Filled draft []
  | _ => Unmoved draft

/-- What the draft meets at a stage. -/
def Stage.Meets (draft : Draft) : Stage → Prop
  | .ask question => draft.start = none ∧ question.Meets draft
  | .done _ => Finished draft

/-- An answer leads to a stage that is met, or is turned down. -/
def Reaction.Meets : Reaction → Prop
  | .accepted _ draft stage => stage.Meets draft
  | .turnedDown _ => True
  | .failed _ => False

variable {draft next : Draft}

theorem mem_edgeQuestions_iff {pair : String × Char} :
    pair ∈ edgeQuestions draft ↔ pair.1 ∈ draft.stateNames ∧ pair.2 ∈ draft.alphabet :=
  List.mem_product

theorem nodup_edgeQuestions (proper : draft.Proper) : (edgeQuestions draft).Nodup :=
  proper.names_distinct.product proper.sound.alphabet_distinct

/-- Before the first target all pairs are still to be asked for. -/
theorem Unmoved.filled (unmoved : Unmoved draft) (proper : draft.Proper) :
    Filled draft (edgeQuestions draft) where
  distinct := nodup_edgeQuestions proper
  asked := fun _ member => mem_edgeQuestions_iff.mp member
  moves := by
    intro state member symbol
    have known : state.name ∈ draft.stateNames := List.mem_map_of_mem member
    simp [unmoved state member, mem_edgeQuestions_iff, known]

/-! ## Stages that are met -/

theorem meets_symbols (unmoved : Unmoved draft) (begins : draft.start = none) (size : Nat) :
    (Stage.symbols draft size).Meets draft := by
  unfold Stage.symbols
  split
  · exact ⟨begins, unmoved⟩
  · exact ⟨begins, unmoved⟩

theorem meets_targets (begins : draft.start = none) {pending : List (String × Char)}
    (filled : Filled draft pending) : (Stage.targets draft pending).Meets draft := by
  cases pending with
  | cons pair later => exact ⟨begins, filled⟩
  | nil =>
    rw [Stage.targets, Stage.afterTargets]
    split
    · rename_i empty
      exact ⟨iff_of_true begins (List.isEmpty_iff.mp empty), filled⟩
    · rename_i present
      exact ⟨begins, by simpa using present, filled⟩

theorem meets_states (proper : draft.Proper) (begins : draft.start = none)
    (unmoved : Unmoved draft) (size : Nat) : (Stage.states draft size).Meets draft := by
  unfold Stage.states
  split
  · exact ⟨begins, unmoved⟩
  · exact meets_targets begins (unmoved.filled proper)

/-! ## Answers -/

/-- A pair that is still to be asked for can be given a move to any state, and
is then no longer to be asked for. -/
theorem Filled.exists_addMove {source target : String} {symbol : Char}
    {later : List (String × Char)} (filled : Filled draft ((source, symbol) :: later))
    (proper : draft.Proper) (known : target ∈ draft.stateNames) :
    ∃ next, draft.addMove source (String.singleton symbol) target = .ok next ∧
      next.start = draft.start ∧ Filled next later := by
  rcases List.forall_mem_cons.mp filled.asked with ⟨⟨sourceKnown, among⟩, others⟩
  rcases List.nodup_cons.mp filled.distinct with ⟨fresh, distinct⟩
  have free : ∀ state ∈ draft.states, state.name = source → state.target? symbol = none := by
    rintro state member rfl
    rw [State.target?_eq_none_iff, filled.moves state member]
    simp
  have unopposed : draft.Unopposed source symbol (draft.stateNames.idxOf target) := by
    intro state member same existing leads
    cases (free state member same).symm.trans leads
  have added := (Draft.addMove_eq_ok_iff proper.names_distinct).mpr
    ⟨symbol, rfl, sourceKnown, known, unopposed, rfl⟩
  refine ⟨_, added, rfl, distinct, ?_, ?_⟩
  · rw [Draft.stateNames_mapStates draft (Draft.name_moved _ _ _)]
    exact others
  · intro state member other
    rcases List.mem_map.mp member with ⟨old, held, rfl⟩
    have before := filled.moves old held other
    rw [Draft.name_moved, Draft.alphabet_mapStates]
    unfold Draft.moved
    by_cases same : old.name = source
    · rw [if_pos ⟨same, free old held same⟩]
      simp only [List.map_append, List.mem_append, before, same]
      by_cases this : other = symbol
      · simp [this, among, fresh]
      · simp [this]
    · rw [if_neg (by simp [same]), before]
      simp [same]

/-- A step that is taken leads on, and the interview does not fail. -/
theorem Acts.meets {changed : Except Fault Draft} {stage : Draft → Stage} {reaction : Reaction}
    (acts : Acts changed stage reaction) (done : changed = .ok next)
    (meets : (stage next).Meets next) : reaction.Meets := by
  cases acts with
  | accepted found =>
    cases found.symm.trans done
    exact meets
  | failed refused => cases refused.symm.trans done

/-- Whatever is answered, no step fails that is taken on it. -/
theorem react_meets (proper : draft.Proper) {question : Question}
    (meets : (Stage.ask question).Meets draft) (answer : String) :
    (question.react draft answer).Meets := by
  rcases meets with ⟨begins, meets⟩
  have reacted := reacts draft answer question
  generalize question.react draft answer = reaction at reacted ⊢
  cases reacted with
  | turnedDown => trivial
  | symbolCount size => exact meets_symbols meets begins size
  | @symbol size letter _ read fresh acts =>
    have still : Unmoved { draft with alphabet := draft.alphabet ++ [letter] } := meets
    exact acts.meets (Draft.addSymbol_eq_ok_iff.mpr ⟨letter, rfl, fresh, rfl⟩)
      (meets_symbols still begins size)
  | stateCount size => exact meets_states proper begins meets size
  | stateName size fits fresh => exact ⟨begins, meets, fits, fresh⟩
  | @acceptance size name accepting _ acts =>
    rcases meets with ⟨unmoved, fits, fresh⟩
    have added : draft.addState name accepting = .ok _ :=
      Draft.addState_eq_ok_iff.mpr ⟨fits, fresh, rfl⟩
    refine acts.meets added (meets_states (proper.addState added) begins ?_ size)
    intro state member
    rcases List.mem_append.mp member with old | new
    · exact unmoved state old
    · rw [List.mem_singleton.mp new]
  | target known acts =>
    rcases meets.exists_addMove proper known with ⟨next, added, kept, filled⟩
    exact acts.meets added (meets_targets (kept.trans begins) filled)
  | startName known acts =>
    rcases meets with ⟨present, filled⟩
    exact acts.meets (Draft.setStart_eq_ok_iff.mpr ⟨known, rfl⟩)
      ⟨iff_of_false (by simp) present, filled.distinct, filled.asked, filled.moves⟩

/-! ## Whole interviews -/

/-- Whether a turn is a question. -/
def Turn.isAsk : Turn → Bool
  | .ask _ => true
  | .say _ => false

/-- How many questions were asked. -/
def Transcript.asked (transcript : Transcript) : Nat :=
  transcript.turns.countP Turn.isAsk

/-- An interview ended with a draft that is filled, or the answers ran out: one
question more was asked than there were answers. -/
def Transcript.Settled (answers : List String) (transcript : Transcript) : Prop :=
  (∃ final, ∃ built : Solid final, Finished final ∧
    transcript.ending = .built built.proper.automaton ∧
      transcript.asked + transcript.unused.length = answers.length) ∨
  (transcript.ending = .outOfAnswers ∧ transcript.unused = [] ∧
    transcript.asked = answers.length + 1)

/-- A question with its answer goes before a conversation. -/
theorem Transcript.Settled.after {answers : List String} {transcript : Transcript}
    (settled : transcript.Settled answers) (answer : String) {turns : List Turn}
    (once : turns.countP Turn.isAsk = 1) (events : List Log.Event) :
    (transcript.after turns events).Settled (answer :: answers) := by
  have asked : (transcript.after turns events).asked = transcript.asked + 1 := by
    rw [Transcript.asked, Transcript.after, List.countP_append, once, Nat.add_comm]
    rfl
  rcases settled with ⟨final, built, finished, ends, count⟩ | ⟨ends, unused, count⟩
  · refine .inl ⟨final, built, finished, ends, ?_⟩
    rw [asked, List.length_cons, ← count]
    exact Nat.add_right_comm _ _ _
  · refine .inr ⟨ends, unused, ?_⟩
    rw [asked, List.length_cons, count]

theorem conclude_settled (solid : Solid draft) (finished : Finished draft)
    (events : List Log.Event) (answers : List String) :
    (Transcript.conclude draft events answers).Settled answers := by
  rw [Transcript.conclude, Draft.finish, solid.proper.build]
  exact .inl ⟨draft, solid, finished, rfl, Nat.zero_add _⟩

/-- The symbols that are asked for are no blanks, since they are in the
alphabet. -/
theorem isBlank_of_letters (solid : Solid draft) {question : Question}
    (meets : (Stage.ask question).Meets draft) :
    ∀ letter ∈ (Stage.ask question).letters, isBlank letter = false := by
  cases question with
  | target source letter later =>
    rcases List.forall_mem_cons.mp meets.2.asked with ⟨first, others⟩
    refine List.forall_mem_cons.mpr ⟨solid.symbols letter first.2, ?_⟩
    intro other member
    rcases List.mem_map.mp member with ⟨pair, pending, rfl⟩
    exact solid.symbols _ (others pair pending).2
  | _ => exact fun _ member => by cases member

/-- From a stage that is met a conversation builds or runs out of answers. -/
theorem converse_settled (solid : Solid draft) {stage : Stage} (meets : stage.Meets draft)
    (answers : List String) : (converse draft stage answers).Settled answers := by
  induction answers generalizing draft stage with
  | nil =>
    cases stage with
    | done events => exact conclude_settled solid meets events []
    | ask question => exact .inr ⟨rfl, rfl, rfl⟩
  | cons answer rest inductionHypothesis =>
    cases stage with
    | done events => exact conclude_settled solid meets events (answer :: rest)
    | ask question =>
      have reaction := react_meets solid.proper meets (trim answer)
      unfold converse
      dsimp only
      split
      · rename_i events next behind taken
        rcases solid_of_accepted solid (isBlank_of_letters solid meets) taken with ⟨later, _⟩
        rw [taken] at reaction
        exact (inductionHypothesis later reaction).after answer rfl events
      · exact (inductionHypothesis solid meets).after answer rfl []
      · rename_i failed
        rw [failed] at reaction
        exact reaction.elim

/-- An automaton that an interview could have asked for. -/
structure Askable (automaton : Automaton) : Prop where
  distinct : automaton.alphabet.Nodup
  visible : ∀ symbol ∈ automaton.alphabet, isBlank symbol = false
  names : ∀ name ∈ automaton.stateNames, checkName name = .ok ()
  complete : automaton.isComplete = true
  within : ∀ move ∈ automaton.transitions, move.2.1 ∈ automaton.alphabet
  start : automaton.start = none ↔ automaton.states = []

theorem Finished.askable (finished : Finished draft) (solid : Solid draft) :
    Askable solid.proper.automaton where
  distinct := solid.proper.sound.alphabet_distinct
  visible := solid.symbols
  names := fun name known => checkName_eq_ok_iff.mpr (solid.proper.fits name known)
  complete := by
    rw [Automaton.isComplete_iff]
    intro state member symbol among
    exact (finished.filled.moves state member symbol).mpr ⟨among, List.not_mem_nil⟩
  within := by
    intro move member
    rcases Automaton.mem_transitions_iff.mp member with ⟨state, held, _, inside⟩
    have used := List.mem_map_of_mem (f := Prod.fst) inside
    rw [State.map_fst_named] at used
    exact ((finished.filled.moves state held move.2.1).mp used).1
  start := finished.start

/-- Whatever the answers are, an interview builds an automaton that could have
been asked for, or it asks one question more than there are answers. -/
theorem interview_ends (answers : List String) :
    (∃ automaton, (interview answers).ending = .built automaton ∧ Askable automaton ∧
      (interview answers).asked + (interview answers).unused.length = answers.length) ∨
    ((interview answers).ending = .outOfAnswers ∧ (interview answers).unused = [] ∧
      (interview answers).asked = answers.length + 1) := by
  have begins : (Stage.ask .symbolCount).Meets Draft.empty :=
    ⟨rfl, fun _ member => by cases member⟩
  rcases converse_settled .empty begins answers with ⟨final, built, finished, ends, count⟩ | out
  · exact .inl ⟨built.proper.automaton, ends, finished.askable built, count⟩
  · exact .inr out

end Interview
end FiniteAutomata
