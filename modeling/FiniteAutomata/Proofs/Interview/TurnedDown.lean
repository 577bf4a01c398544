import FiniteAutomata.Proofs.Interview.Script

namespace FiniteAutomata
namespace Interview

/-!
# Answers that are turned down

An answer that is turned down is followed by a remark, and the same question is
asked again of the same draft.  So an interview is led on by the answers that
are taken, and an interview that is given only these goes the same way without
a remark.  Each of them settles one thing that is asked about an automaton, so
the sizes of the automaton tell how many there are.
-/

open Text (isBlank trim)

variable {automaton : Automaton} {draft next final : Draft} {question : Question} {stage : Stage}
variable {answers : List String}

/-! ## Answers without a remark -/

/-- How many remarks were made. -/
def Transcript.remarked (transcript : Transcript) : Nat :=
  transcript.turns.countP fun turn => !turn.isAsk

theorem asked_after (transcript : Transcript) (turns : List Turn) (events : List Log.Event) :
    (transcript.after turns events).asked = turns.countP Turn.isAsk + transcript.asked :=
  List.countP_append

theorem remarked_after (transcript : Transcript) (turns : List Turn) (events : List Log.Event) :
    (transcript.after turns events).remarked =
      turns.countP (fun turn => !turn.isAsk) + transcript.remarked :=
  List.countP_append

/-- The answers that no remark follows, where each question has one answer. -/
def undisputed : List Turn → List String → List String
  | .ask _ :: turns, answer :: answers =>
    match turns with
    | .say _ :: later => undisputed later answers
    | _ => answer :: undisputed turns answers
  | _, _ => []

/-- An answer counts if the next turn is a question or there is none. -/
theorem undisputed_cons {turns : List Turn}
    (free : ∀ turn, turns.head? = some turn → turn.isAsk = true) (prompt answer : String) :
    undisputed (.ask prompt :: turns) (answer :: answers) = answer :: undisputed turns answers := by
  cases turns with
  | nil => rfl
  | cons turn later =>
    cases turn with
    | ask other => rfl
    | say remark => cases free (.say remark) rfl

theorem conclude_parts (draft : Draft) (events : List Log.Event) (unused : List String) :
    (Transcript.conclude draft events unused).turns = [] ∧
      (Transcript.conclude draft events unused).unused = unused := by
  rw [Transcript.conclude]
  split <;> exact ⟨rfl, rfl⟩

theorem conclude_ending_iff {events : List Log.Event} {unused : List String} :
    (Transcript.conclude draft events unused).ending = .built automaton ↔
      draft.build = .ok automaton := by
  rw [Transcript.conclude, Draft.finish]
  cases draft.build with
  | ok built => simp
  | error fault => simp [Log.Reported.silent]

theorem converse_of_turnedDown {answer remark : String}
    (refused : question.react draft (trim answer) = .turnedDown remark) (rest : List String) :
    converse draft (.ask question) (answer :: rest) =
      (converse draft (.ask question) rest).after
        [.ask (question.prompt draft), .say remark] [] := by
  rw [converse, refused]

/-- A conversation begins with a question, if there is anything left to ask. -/
theorem isAsk_of_head? {turn : Turn} (first : (converse draft stage answers).turns.head? = some turn) :
    turn.isAsk = true := by
  cases stage with
  | done events =>
    rw [converse, (conclude_parts draft events answers).1] at first
    cases first
  | ask question =>
    cases answers with
    | nil =>
      cases first
      rfl
    | cons answer rest =>
      unfold converse at first
      dsimp only at first
      split at first
      all_goals
        cases first
        rfl

theorem undisputed_after (prompt answer : String) (events : List Log.Event)
    (consumed : List String) :
    undisputed ((converse draft stage answers).after [.ask prompt] events).turns
        (answer :: consumed) =
      answer :: undisputed (converse draft stage answers).turns consumed :=
  undisputed_cons (fun _ => isAsk_of_head?) prompt answer

/-! ## The course of an interview -/

/-- Answers that are all taken lead from a stage to the end with a draft. -/
inductive Course (final : Draft) : Draft → Stage → List String → Prop
  | done (events : List Log.Event) : Course final final (.done events) []
  | ask {draft next : Draft} {question : Question} {answer : String} {events : List Log.Event}
      {stage : Stage} {rest : List String}
      (taken : question.react draft (trim answer) = .accepted events next stage)
      (later : Course final next stage rest) :
      Course final draft (.ask question) (answer :: rest)

/-- The answers without a remark are the course of a conversation that builds, and
every other question has a remark. -/
theorem exists_course (ends : (converse draft stage answers).ending = .built automaton) :
    ∃ consumed final, answers = consumed ++ (converse draft stage answers).unused ∧
      Course final draft stage (undisputed (converse draft stage answers).turns consumed) ∧
      final.build = .ok automaton ∧
      (converse draft stage answers).asked =
        (undisputed (converse draft stage answers).turns consumed).length +
          (converse draft stage answers).remarked := by
  induction draft, stage, answers using converse.induct with
  | case1 draft events answers =>
    rcases conclude_parts draft events answers with ⟨turns, unused⟩
    rw [converse, conclude_ending_iff] at ends
    rw [converse, Transcript.asked, Transcript.remarked, turns, unused]
    exact ⟨[], draft, rfl, .done events, ends, rfl⟩
  | case2 draft question => cases ends
  | case3 draft question answer rest events next stage taken inductionHypothesis =>
    rw [converse_of_accepted taken] at ends ⊢
    rcases inductionHypothesis ends with ⟨consumed, final, whole, course, built, count⟩
    refine ⟨answer :: consumed, final, congrArg (answer :: ·) whole, ?_, built, ?_⟩
    · rw [undisputed_after]
      exact .ask taken course
    · rw [undisputed_after, asked_after, remarked_after, count, List.length_cons]
      change 1 + _ = _ + 1 + (0 + _)
      omega
  | case4 draft question answer rest remark refused inductionHypothesis =>
    rw [converse_of_turnedDown refused] at ends ⊢
    rcases inductionHypothesis ends with ⟨consumed, final, whole, course, built, count⟩
    refine ⟨answer :: consumed, final, congrArg (answer :: ·) whole, course, built, ?_⟩
    rw [asked_after, remarked_after, count]
    exact Nat.add_left_comm 1 _ _
  | case5 draft question answer rest fault failed =>
    rw [converse, failed] at ends
    cases ends

namespace Course

/-- An interview that is given the answers of a course takes all of them. -/
theorem smooth (course : Course final draft stage answers) (built : final.build = .ok automaton) :
    Smooth (automaton = ·) (converse draft stage answers) := by
  induction course with
  | done events =>
    rcases conclude_parts final events [] with ⟨turns, unused⟩
    refine ⟨⟨automaton, conclude_ending_iff.mpr built, rfl⟩, unused, ?_⟩
    rw [converse, turns]
    exact fun _ member => by cases member
  | ask taken _ inductionHypothesis => exact .answer taken inductionHypothesis

theorem solid (course : Course final draft stage answers) (solid : Solid draft)
    (pending : ∀ letter ∈ stage.letters, isBlank letter = false) : Solid final := by
  induction course with
  | done events => exact solid
  | ask taken _ inductionHypothesis =>
    rcases solid_of_accepted solid pending taken with ⟨later, left⟩
    exact inductionHypothesis later left

end Course

/-! ## How many answers are taken -/

/-- How many questions there are about an automaton with so many symbols and
states. -/
def questionCount (symbols states : Nat) : Nat :=
  2 + symbols + 2 * states + symbols * states + if 0 < states then 1 else 0

/-- So many answers are taken before a stage. -/
def Stage.Follows (draft : Draft) (count : Nat) : Stage → Prop
  | .ask .symbolCount => count = 0 ∧ draft.alphabet = [] ∧ draft.states = []
  | .ask (.symbol _) | .ask .stateCount => count = 1 + draft.alphabet.length ∧ draft.states = []
  | .ask (.stateName _) => count = 2 + draft.alphabet.length + 2 * draft.states.length
  | .ask (.acceptance _ _) => count = 2 + draft.alphabet.length + 2 * draft.states.length + 1
  | .ask (.target _ _ later) => count + (later.length + 1) =
      2 + draft.alphabet.length + 2 * draft.states.length +
        draft.alphabet.length * draft.states.length
  | .ask .startName => count = 2 + draft.alphabet.length + 2 * draft.states.length +
      draft.alphabet.length * draft.states.length ∧ draft.states ≠ []
  | .done _ => count = questionCount draft.alphabet.length draft.states.length

theorem follows_symbols {count : Nat} (counted : count = 1 + draft.alphabet.length)
    (bare : draft.states = []) (size : Nat) : (Stage.symbols draft size).Follows draft count := by
  unfold Stage.symbols
  split
  · exact ⟨counted, bare⟩
  · exact ⟨counted, bare⟩

theorem follows_targets {count : Nat} {pending : List (String × Char)}
    (counted : count + pending.length = 2 + draft.alphabet.length + 2 * draft.states.length +
      draft.alphabet.length * draft.states.length) :
    (Stage.targets draft pending).Follows draft count := by
  cases pending with
  | cons pair later => exact counted
  | nil =>
    rw [Stage.targets, Stage.afterTargets]
    split
    · rename_i empty
      rw [List.isEmpty_iff] at empty
      simpa [Stage.Follows, questionCount, empty] using counted
    · rename_i present
      exact ⟨counted, by simpa using present⟩

theorem follows_states {count : Nat}
    (counted : count = 2 + draft.alphabet.length + 2 * draft.states.length) (size : Nat) :
    (Stage.states draft size).Follows draft count := by
  unfold Stage.states
  split
  · exact counted
  · have pairs : (edgeQuestions draft).length = draft.stateNames.length * draft.alphabet.length :=
      List.length_product _ _
    rw [Draft.stateNames, List.length_map, Nat.mul_comm] at pairs
    exact follows_targets (by rw [counted, pairs])

/-- A move changes neither the number of symbols nor that of states. -/
theorem sizes_of_addMove {source text target : String}
    (added : draft.addMove source text target = .ok next) :
    next.alphabet.length = draft.alphabet.length ∧ next.states.length = draft.states.length := by
  unfold Draft.addMove at added
  repeat' split at added
  all_goals cases added
  · exact ⟨rfl, rfl⟩
  · exact ⟨rfl, List.length_modify _ _ _⟩

/-- An answer that is taken is one more. -/
theorem follows_of_accepted {count : Nat} (follows : (Stage.ask question).Follows draft count)
    {answer : String} {events : List Log.Event}
    (taken : question.react draft answer = .accepted events next stage) :
    stage.Follows next (count + 1) := by
  have reacted := taken ▸ reacts draft answer question
  cases reacted with
  | symbolCount size =>
    rcases follows with ⟨rfl, symbols, states⟩
    exact follows_symbols (by rw [symbols, List.length_nil]) states size
  | symbol read fresh acts =>
    rcases acts with ⟨added⟩
    rcases follows with ⟨rfl, states⟩
    rcases Draft.addSymbol_eq_ok_iff.mp added with ⟨letter, _, _, rfl⟩
    refine follows_symbols ?_ ?_ _
    · rw [List.length_append, List.length_singleton, Nat.add_assoc]
    · exact states
  | stateCount size =>
    rcases follows with ⟨rfl, states⟩
    refine follows_states ?_ size
    rw [states, List.length_nil]
    omega
  | stateName size fits fresh => exact congrArg (· + 1) follows
  | acceptance acts =>
    rcases acts with ⟨added⟩
    rcases Draft.addState_eq_ok_iff.mp added with ⟨_, _, rfl⟩
    refine follows_states ?_ _
    rw [show count = _ from follows, List.length_append, List.length_singleton]
    dsimp only
    omega
  | @target source letter later _ known acts =>
    rcases acts with ⟨added⟩
    rcases sizes_of_addMove added with ⟨symbols, states⟩
    apply follows_targets
    rw [symbols, states, ← show count + (later.length + 1) = _ from follows]
    omega
  | startName known acts =>
    rcases acts with ⟨set⟩
    rcases follows with ⟨rfl, present⟩
    rcases Draft.setStart_eq_ok_iff.mp set with ⟨_, rfl⟩
    have states : 0 < draft.states.length := List.length_pos_iff.mpr present
    simp [Stage.Follows, questionCount, states]

/-- A course has one answer for each question about the automaton. -/
theorem Course.length {count : Nat} (course : Course final draft stage answers)
    (follows : stage.Follows draft count) :
    count + answers.length = questionCount final.alphabet.length final.states.length := by
  induction course generalizing count with
  | done events => exact follows
  | ask taken _ inductionHypothesis =>
    rw [← inductionHypothesis (follows_of_accepted follows taken), List.length_cons]
    omega

/-- An interview that builds asks twice for sizes, once for each symbol, twice for
each state, once for each pair of them and once for a start if there is a state,
and once more for each remark that it makes.  Given only the answers that no
remark follows, it builds the same automaton, makes no remark and reads them
all. -/
theorem interview_undisputed {answers : List String} {automaton : Automaton}
    (ends : (interview answers).ending = .built automaton) :
    (interview answers).asked = 2 + automaton.alphabet.length + 2 * automaton.states.length +
        automaton.alphabet.length * automaton.states.length +
        (if 0 < automaton.states.length then 1 else 0) + (interview answers).remarked ∧
    ∃ consumed, answers = consumed ++ (interview answers).unused ∧
      let kept := undisputed (interview answers).turns consumed
      (interview kept).ending = .built automaton ∧ (interview kept).remarked = 0 ∧
        (interview kept).unused = [] := by
  have begins : (Stage.ask .symbolCount).Follows Draft.empty 0 := ⟨rfl, rfl, rfl⟩
  rcases exists_course ends with ⟨consumed, final, whole, course, built, asked⟩
  have proper := (course.solid .empty (by simp [Stage.letters])).proper
  cases built.symm.trans proper.build
  have length := course.length begins
  have smooth := course.smooth built
  refine ⟨?_, consumed, whole, ?_, ?_, smooth.unused⟩
  · rw [interview, asked, ← Nat.zero_add (undisputed _ _).length, length]
    rfl
  · rcases smooth.builds with ⟨_, ends, rfl⟩
    exact ends
  · exact List.countP_eq_zero.mpr fun turn member => by simp [smooth.quiet turn member]

/-- Answers of which nine are turned down, at all but one of the questions, and a
last one that is not read. -/
def fumbledAnswers : List String :=
  ["-1", "two", " 2 ", "", "xy", "x", "y", "2", "even", "perhaps", "Yes", "even", "a,b", "odd", "n",
    "odd", "end", "even", "even", "odd", "", "even", "later"]

/-- What is left of them. -/
def takenAnswers : List String :=
  [" 2 ", "xy", "y", "2", "even", "Yes", "odd", "n", "odd", "even", "even", "odd", "even"]

/-- What they build. -/
def fumbledAutomaton : Automaton :=
  ⟨[⟨"even", true, [('x', 1), ('y', 0)]⟩, ⟨"odd", false, [('x', 0), ('y', 1)]⟩], ['x', 'y'],
    some 0, by constructor <;> decide⟩

theorem interview_undisputed_fumbled :
    (interview fumbledAnswers).ending = .built fumbledAutomaton ∧
    (interview fumbledAnswers).asked = 13 + (interview fumbledAnswers).remarked ∧
    (interview takenAnswers).ending = .built fumbledAutomaton ∧
      (interview takenAnswers).remarked = 0 ∧ (interview takenAnswers).unused = [] := by
  have built : (interview fumbledAnswers).ending = .built fumbledAutomaton := by decide +kernel
  have unused : (interview fumbledAnswers).unused = ["later"] := by decide +kernel
  have kept : undisputed (interview fumbledAnswers).turns fumbledAnswers.dropLast =
      takenAnswers := by decide +kernel
  rcases interview_undisputed built with ⟨count, consumed, whole, again⟩
  have same : consumed = fumbledAnswers.dropLast := by
    rw [whole, unused, List.dropLast_concat]
  rw [same, kept] at again
  exact ⟨built, count, again⟩

end Interview
end FiniteAutomata
