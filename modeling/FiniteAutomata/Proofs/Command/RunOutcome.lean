import FiniteAutomata.Proofs.Command.ShownSpecification
import FiniteAutomata.Proofs.Text.Decimal

namespace FiniteAutomata
namespace Command

/-!
# How running words ends

The words in front of the first one that is longer than the limit are run and
reported in their order, each for itself; it and the words behind it are not.
The exit code says first whether there is such a word, and only then whether
every word is accepted.
-/

/-- The index of the first word that is longer than the limit, or the number of
words if there is none. -/
def firstLong (limit : Int) (words : List String) : Nat :=
  words.findIdx fun word => decide (limit < word.length)

variable {limit : Int} {word : String} {words : List String}

theorem firstLong_cons_of_long (long : limit < word.length) (rest : List String) :
    firstLong limit (word :: rest) = 0 := by
  simp [firstLong, List.findIdx_cons, long]

theorem firstLong_cons_of_fits (fits : ¬ limit < word.length) (rest : List String) :
    firstLong limit (word :: rest) = firstLong limit rest + 1 := by
  simp [firstLong, List.findIdx_cons, fits]

/-- Without long words the first long one is behind them all. -/
theorem firstLong_eq_length (fits : ∀ word ∈ words, ¬ limit < word.length) :
    firstLong limit words = words.length := by
  apply List.findIdx_eq_length.mpr
  intro word member
  exact decide_eq_false (fits word member)

section Words

variable (automaton : Automaton) (limit : Int) (trace json : Bool) (words : List String)

/-! ## One word -/

theorem runWords_cons_of_long {limit : Int} (long : limit < word.length) (rest : List String) :
    runWords automaton limit trace json (word :: rest) = .refused (longWordMessage limit) := by
  rw [runWords, if_pos long]

/-- A word that fits is run by itself, in front of the words behind it. -/
theorem runWords_cons_of_fits {limit : Int} (fits : ¬ limit < word.length) (rest : List String) :
    runWords automaton limit trace json (word :: rest) =
      ⟨endingAfter (automaton.run word) (runWords automaton limit trace json rest).ending,
        runText trace json (automaton.run word) ++
          (runWords automaton limit trace json rest).output,
        (runWords automaton limit trace json rest).errors,
        (automaton.run word).event :: (runWords automaton limit trace json rest).events⟩ := by
  rw [runWords, if_neg fits]

/-! ## All words -/

/-- The reports of the words in front of the first long one follow each other. -/
theorem output_runWords : (runWords automaton limit trace json words).output.toList =
    (words.take (firstLong limit words)).flatMap fun word =>
      (runText trace json (automaton.run word)).toList := by
  induction words with
  | nil => rfl
  | cons word rest inductionHypothesis =>
    by_cases long : limit < word.length
    · rw [runWords_cons_of_long automaton trace json long, firstLong_cons_of_long long]
      rfl
    · rw [runWords_cons_of_fits automaton trace json long, firstLong_cons_of_fits long,
        List.take_succ_cons, List.flatMap_cons, ← inductionHypothesis]
      exact String.toList_append

end Words

/-! ## The line for a long word -/

/-- What is refused in words of one line is refused on one line. -/
theorem lines_refused {message : String} (unbroken : Text.Unbroken message.toList) :
    Text.lines (Report.refused message).errors.toList = [("error: " ++ message).toList] := by
  have label : Text.Unbroken "error: ".toList := by decide +kernel
  rw [Report.refused, Report.line, String.toList_append]
  exact Text.lines_append_break (Text.unbroken_toList_append label unbroken) (Text.lines_feed [])

section Perform

variable {surroundings : Surroundings} {settings : Settings} {source : SourceChoice}
variable {automaton : Automaton}

theorem perform_run_eq
    (loaded : (readSource surroundings settings.truncateSymbols source).result = .ok automaton)
    (words : List String) (trace json : Bool) :
    (Action.run source words trace json).perform surroundings settings =
      ((runWords automaton settings.maxWordLength trace json words).after
        (readSource surroundings settings.truncateSymbols source).events, surroundings.files) := by
  have ran := withAutomaton_eq loaded fun automaton =>
    runWords automaton settings.maxWordLength trace json words
  exact congrArg (fun report => (report, surroundings.files)) ran

end Perform

/-! ## A low limit -/

end Command
end FiniteAutomata
