import FiniteAutomata.Interview.Transcript
import FiniteAutomata.Proofs.Automaton.Proper
import FiniteAutomata.Proofs.Text.Trimmed

namespace FiniteAutomata
namespace Interview

/-!
# What an interview gives to a draft

An answer loses the blanks at its ends before it is looked at, so the symbols
that are taken from answers are no blanks, and only such symbols are asked for
again when it comes to the moves.  An answer that is taken changes the draft by
one of its own steps, and one that is turned down changes nothing.  So an
interview that ends with an automaton has built it from a proper draft without
blank symbols.
-/

open Text (isBlank trim)

/-- A proper draft in which no symbol is a blank. -/
structure Solid (draft : Draft) : Prop where
  proper : draft.Proper
  symbols : ∀ symbol ∈ draft.alphabet, isBlank symbol = false
  moves : ∀ state ∈ draft.states, ∀ move ∈ state.moves, isBlank move.1 = false

/-! ## The steps of a draft -/

namespace Solid

variable {draft next : Draft}

theorem empty : Solid Draft.empty where
  proper := .empty
  symbols := by simp [Draft.empty]
  moves := by simp [Draft.empty]

theorem addSymbol (solid : Solid draft) {symbol : Char} (visible : isBlank symbol = false)
    (added : draft.addSymbol (String.singleton symbol) = .ok next) : Solid next := by
  have proper := solid.proper.addSymbol added
  rcases Draft.addSymbol_eq_ok_iff.mp added with ⟨same, single, _, rfl⟩
  refine ⟨proper, ?_, solid.moves⟩
  intro other member
  rcases List.mem_append.mp member with old | new
  · exact solid.symbols other old
  · rwa [List.mem_singleton.mp new, ← String.singleton_inj.mp single]

theorem addState (solid : Solid draft) {name : String} {accepting : Bool}
    (added : draft.addState name accepting = .ok next) : Solid next := by
  have proper := solid.proper.addState added
  rcases Draft.addState_eq_ok_iff.mp added with ⟨_, _, rfl⟩
  refine ⟨proper, solid.symbols, ?_⟩
  intro state member
  rcases List.mem_append.mp member with old | new
  · exact solid.moves state old
  · rw [List.mem_singleton.mp new]
    simp

theorem setStart (solid : Solid draft) {name : String} (set : draft.setStart name = .ok next) :
    Solid next := by
  have proper := solid.proper.setStart set
  rcases Draft.setStart_eq_ok_iff.mp set with ⟨_, rfl⟩
  exact ⟨proper, solid.symbols, solid.moves⟩

theorem addMove (solid : Solid draft) {source target : String} {symbol : Char}
    (visible : isBlank symbol = false)
    (added : draft.addMove source (String.singleton symbol) target = .ok next) : Solid next := by
  have proper := solid.proper.addMove added
  rcases (Draft.addMove_eq_ok_iff solid.proper.names_distinct).mp added with
    ⟨same, single, _, _, _, rfl⟩
  refine ⟨proper, solid.symbols, ?_⟩
  intro state member move inside
  rcases List.mem_map.mp member with ⟨old, held, rfl⟩
  unfold Draft.moved at inside
  split at inside
  · rcases List.mem_append.mp inside with earlier | last
    · exact solid.moves old held move earlier
    · rwa [List.mem_singleton.mp last, ← String.singleton_inj.mp single]
  · exact solid.moves old held move inside

end Solid

/-! ## The questions that are left -/

/-- The symbols that a stage will ask targets for. -/
def Stage.letters : Stage → List Char
  | .ask (.target _ letter later) => letter :: later.map Prod.snd
  | _ => []

theorem letters_targets (draft : Draft) (pending : List (String × Char)) :
    (Stage.targets draft pending).letters = pending.map Prod.snd := by
  cases pending with
  | nil =>
    rw [Stage.targets, Stage.afterTargets]
    split <;> rfl
  | cons first rest => rfl

theorem letters_symbols (draft : Draft) (size : Nat) : (Stage.symbols draft size).letters = [] := by
  rw [Stage.symbols]
  split <;> rfl

/-- Targets are asked for the symbols of the alphabet. -/
theorem mem_alphabet_of_mem_letters {draft : Draft} {size : Nat} {letter : Char}
    (member : letter ∈ (Stage.states draft size).letters) : letter ∈ draft.alphabet := by
  rw [Stage.states] at member
  split at member
  · cases member
  · rw [letters_targets] at member
    rcases List.mem_map.mp member with ⟨⟨name, symbol⟩, asked, rfl⟩
    rcases List.mem_flatMap.mp asked with ⟨other, _, listed⟩
    rcases List.mem_map.mp listed with ⟨used, among, same⟩
    cases same
    exact among

/-! ## Answers -/

/-- What becomes of an answer on which a draft is changed: the interview goes on
with the changed draft, or it fails if the step is refused. -/
inductive Acts (changed : Except Fault Draft) (stage : Draft → Stage) : Reaction → Prop
  | accepted {events : List Log.Event} {next : Draft} (done : changed = .ok next) :
      Acts changed stage (.accepted events next (stage next))
  | failed {fault : Fault} (refused : changed = .error fault) : Acts changed stage (.failed fault)

/-- What becomes of an answer to a question: it is turned down, or it passed the
checks of the question and is acted on. -/
inductive Reacts (draft : Draft) (answer : String) : Question → Reaction → Prop
  | turnedDown (question : Question) (remark : String) :
      Reacts draft answer question (.turnedDown remark)
  | symbolCount (size : Nat) :
      Reacts draft answer .symbolCount (.accepted [] draft (.symbols draft size))
  | symbol {size : Nat} {letter : Char} {reaction : Reaction}
      (read : answer.toList.head? = some letter) (fresh : letter ∉ draft.alphabet)
      (acts : Acts (draft.addSymbol (String.singleton letter)) (Stage.symbols · size) reaction) :
      Reacts draft answer (.symbol size) reaction
  | stateCount (size : Nat) :
      Reacts draft answer .stateCount (.accepted [] draft (.states draft size))
  | stateName (size : Nat) (fits : NameFits answer) (fresh : answer ∉ draft.stateNames) :
      Reacts draft answer (.stateName size)
        (.accepted [] draft (.ask (.acceptance size answer)))
  | acceptance {size : Nat} {name : String} {accepting : Bool} {reaction : Reaction}
      (acts : Acts (draft.addState name accepting) (Stage.states · size) reaction) :
      Reacts draft answer (.acceptance size name) reaction
  | target {source : String} {letter : Char} {later : List (String × Char)} {reaction : Reaction}
      (known : answer ∈ draft.stateNames)
      (acts : Acts (draft.addMove source (String.singleton letter) answer)
        (Stage.targets · later) reaction) :
      Reacts draft answer (.target source letter later) reaction
  | startName {reaction : Reaction} (known : answer ∈ draft.stateNames)
      (acts : Acts (draft.setStart answer) (fun _ => .done []) reaction) :
      Reacts draft answer .startName reaction

theorem acts_goOn (changed : Except Fault Draft) (stage : Draft → Stage) :
    Acts changed stage (goOn changed stage) := by
  cases changed with
  | ok next => exact .accepted rfl
  | error fault => exact .failed rfl

theorem hasSymbol_singleton_iff {draft : Draft} {symbol : Char} :
    draft.hasSymbol (String.singleton symbol) = true ↔ symbol ∈ draft.alphabet := by
  simp [Draft.hasSymbol, String.singleton_inj]

/-- Whatever is known of a reaction follows from these cases. -/
theorem reacts (draft : Draft) (answer : String) (question : Question) :
    Reacts draft answer question (question.react draft answer) := by
  cases question with
  | symbolCount =>
    simp only [Question.react]
    split
    · exact .symbolCount _
    · exact .turnedDown _ _
  | symbol size =>
    simp only [Question.react]
    split
    · exact .turnedDown _ _
    · rename_i letter others read
      split
      · exact .turnedDown _ _
      · rename_i fresh
        exact .symbol (by rw [read, List.head?_cons])
          (fun known => fresh (hasSymbol_singleton_iff.mpr known)) (acts_goOn _ _)
  | stateCount =>
    simp only [Question.react]
    split
    · exact .stateCount _
    · exact .turnedDown _ _
  | stateName size =>
    simp only [Question.react]
    split
    · exact .turnedDown _ _
    · split
      · exact .turnedDown _ _
      · rename_i fresh
        split
        · exact .turnedDown _ _
        · rename_i checked
          exact .stateName size (checkName_eq_ok_iff.mp checked)
            fun known => fresh (Draft.hasState_iff.mpr known)
  | acceptance size name =>
    simp only [Question.react]
    split
    · exact .acceptance (acts_goOn _ _)
    · exact .turnedDown _ _
  | target source letter later =>
    simp only [Question.react]
    split
    · rename_i known
      have result := Draft.move_result draft source (String.singleton letter) answer
      split
      · rename_i moved
        rw [moved] at result
        exact .target (Draft.hasState_iff.mp known) (.accepted result.symm)
      · rename_i moved
        rw [moved] at result
        exact .target (Draft.hasState_iff.mp known) (.failed result.symm)
    · exact .turnedDown _ _
  | startName =>
    simp only [Question.react]
    split
    · rename_i known
      exact .startName (Draft.hasState_iff.mp known) (acts_goOn _ _)
    · exact .turnedDown _ _

/-- An answer that is taken keeps blanks out of the draft and of the questions
that are left. -/
theorem solid_of_accepted {draft next : Draft} (solid : Solid draft) {question : Question}
    (pending : ∀ letter ∈ (Stage.ask question).letters, isBlank letter = false) {answer : String}
    {events : List Log.Event} {stage : Stage}
    (taken : question.react draft (trim answer) = .accepted events next stage) :
    Solid next ∧ ∀ letter ∈ stage.letters, isBlank letter = false := by
  have reacted := taken ▸ reacts draft (trim answer) question
  cases reacted with
  | symbolCount size =>
    rw [letters_symbols]
    exact ⟨solid, by simp⟩
  | symbol read fresh acts =>
    rcases acts with ⟨added⟩
    rw [trim, String.toList_ofList] at read
    rw [letters_symbols]
    exact ⟨solid.addSymbol (Text.isBlank_of_head?_trimmed read) added, by simp⟩
  | stateCount size =>
    exact ⟨solid, fun letter member => solid.symbols letter (mem_alphabet_of_mem_letters member)⟩
  | stateName size fits fresh => exact ⟨solid, by simp [Stage.letters]⟩
  | acceptance acts =>
    rcases acts with ⟨added⟩
    have later := solid.addState added
    exact ⟨later, fun letter member => later.symbols letter (mem_alphabet_of_mem_letters member)⟩
  | target known acts =>
    rcases acts with ⟨added⟩
    rcases List.forall_mem_cons.mp pending with ⟨visible, others⟩
    rw [letters_targets]
    exact ⟨solid.addMove visible added, others⟩
  | startName known acts =>
    rcases acts with ⟨set⟩
    exact ⟨solid.setStart set, by simp [Stage.letters]⟩

/-! ## Whole interviews -/

theorem conclude_built {draft : Draft} (proper : draft.Proper) {events : List Log.Event}
    {unused : List String} {automaton : Automaton}
    (ends : (Transcript.conclude draft events unused).ending = .built automaton) :
    automaton = proper.automaton := by
  rw [Transcript.conclude, Draft.finish, proper.build] at ends
  exact (Ending.built.inj ends).symm

/-- What a conversation builds is a draft without blank symbols, if it was
without them so far. -/
theorem exists_solid_of_converse {draft : Draft} (solid : Solid draft) {stage : Stage}
    (pending : ∀ letter ∈ stage.letters, isBlank letter = false) {answers : List String}
    {automaton : Automaton} (ends : (converse draft stage answers).ending = .built automaton) :
    ∃ final, ∃ built : Solid final, automaton = built.proper.automaton := by
  induction answers generalizing draft stage with
  | nil =>
    cases stage with
    | done events => exact ⟨draft, solid, conclude_built solid.proper ends⟩
    | ask question => cases ends
  | cons answer rest inductionHypothesis =>
    cases stage with
    | done events => exact ⟨draft, solid, conclude_built solid.proper ends⟩
    | ask question =>
      unfold converse at ends
      dsimp only at ends
      split at ends
      · rename_i events next behind taken
        rcases solid_of_accepted solid pending taken with ⟨later, left⟩
        exact inductionHypothesis later left ends
      · exact inductionHypothesis solid pending ends
      · cases ends

/-- What an interview builds is a proper draft without blank symbols. -/
theorem exists_solid_of_interview {answers : List String} {automaton : Automaton}
    (ends : (interview answers).ending = .built automaton) :
    ∃ final, ∃ built : Solid final, automaton = built.proper.automaton :=
  exists_solid_of_converse .empty (by simp [Stage.letters]) ends

end Interview
end FiniteAutomata
