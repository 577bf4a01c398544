import FiniteAutomata.Proofs.Automaton.NameView
import FiniteAutomata.Proofs.Automaton.Reached

namespace FiniteAutomata
namespace Automaton

/-!
# Runs of words in two parts

A walk that gets stuck within a word gets stuck there whatever is written behind
the word.  A walk that reads all of it goes on from where it has come to, as a
walk of the second part alone.  So a run of two words is the run of the first,
if that is stuck, and otherwise it ends as the run of the second word does from
the state that the first one ends in.
-/

variable {automaton : Automaton} {index start : Nat}

/-- The automaton with another start. -/
def withStart (automaton : Automaton) {index : Nat} (inside : index < automaton.states.length) :
    Automaton :=
  { automaton with
    start := some index
    sound :=
      { automaton.sound with
        start_bound := by
          rintro given ⟨⟩
          exact inside } }

theorem run_withStart (inside : index < automaton.states.length) (word : String) :
    (automaton.withStart inside).run word = automaton.runFrom index word := by
  have same : (automaton.withStart inside).states = automaton.states := rfl
  exact runFrom_of_states same index word

/-! ## Walks -/

/-- What is behind a word does not matter to a walk that is stuck within it. -/
theorem walk_append_of_stuck {first : List Char} (stuck : (automaton.walk index first).2 ≠ [])
    (second : List Char) : automaton.walk index (first ++ second) =
      ((automaton.walk index first).1, (automaton.walk index first).2 ++ second) := by
  induction first generalizing index with
  | nil => exact absurd rfl stuck
  | cons symbol rest inductionHypothesis =>
    rw [walk] at stuck
    rw [List.cons_append, walk, walk]
    cases moved : automaton.step index symbol with
    | none => rfl
    | some next =>
      rw [moved] at stuck
      dsimp only at stuck ⊢
      rw [inductionHypothesis stuck]

/-- A walk that reads a whole word goes on from the position it has come to. -/
theorem walk_append_of_read {first : List Char} (read : (automaton.walk index first).2 = [])
    (second : List Char) : automaton.walk index (first ++ second) =
      let further := automaton.walk ((automaton.walk index first).1.getLast?.getD index) second
      ((automaton.walk index first).1 ++ further.1, further.2) := by
  induction first generalizing index with
  | nil => rfl
  | cons symbol rest inductionHypothesis =>
    rw [walk] at read
    rw [List.cons_append, walk, walk]
    cases moved : automaton.step index symbol with
    | none =>
      rw [moved] at read
      cases read
    | some next =>
      rw [moved] at read
      dsimp only at read ⊢
      rw [inductionHypothesis read, List.getLast?_cons]
      rfl

/-! ## Runs -/

/-- A run reports the first symbol that its walk leaves unread, the state of the
last position and the states of all positions. -/
theorem runFrom_parts (automaton : Automaton) (start : Nat) (word : String) :
    (automaton.runFrom start word).symbol = (automaton.walk start word.toList).2.head? ∧
    (automaton.runFrom start word).finalState =
      some (automaton.nameAt ((automaton.walk start word.toList).1.getLast?.getD start)) ∧
    (automaton.runFrom start word).path =
      (start :: (automaton.walk start word.toList).1).map automaton.nameAt := by
  unfold runFrom
  rcases automaton.walk start word.toList with ⟨reached, _ | ⟨symbol, rest⟩⟩
  · dsimp only
    split <;> exact ⟨rfl, rfl, rfl⟩
  · exact ⟨rfl, rfl, rfl⟩

theorem runFrom_append_of_stuck {first : String}
    (stuck : (automaton.walk start first.toList).2 ≠ []) (second : String) :
    automaton.runFrom start (first ++ second) =
      { automaton.runFrom start first with word := first ++ second } := by
  unfold runFrom
  rw [String.toList_append, walk_append_of_stuck stuck]
  generalize automaton.walk start first.toList = walked at stuck
  rcases walked with ⟨reached, _ | ⟨symbol, rest⟩⟩
  · exact absurd rfl stuck
  · rfl

/-- The last position of two walks, one behind the other. -/
theorem getLast?_append_getD (reached more : List Nat) (start : Nat) :
    (reached ++ more).getLast?.getD start = more.getLast?.getD (reached.getLast?.getD start) := by
  rw [List.getLast?_append]
  cases more.getLast? <;> rfl

/-- A run goes on as a run from the position that the first word leads to. -/
theorem runFrom_append_of_read {first : String}
    (read : (automaton.walk start first.toList).2 = []) (second : String) :
    automaton.runFrom start (first ++ second) =
      let further := automaton.runFrom
        ((automaton.walk start first.toList).1.getLast?.getD start) second
      { further with
        word := first ++ second
        path := (automaton.runFrom start first).path ++ further.path.tail
        consumed := first.length + further.consumed } := by
  have whole : (automaton.walk start first.toList).1.length = first.length := by
    have unread := walk_unread automaton start first.toList
    rw [read, eq_comm, List.drop_eq_nil_iff, String.length_toList] at unread
    have within := length_walk_le automaton start first.toList
    rw [String.length_toList] at within
    exact Nat.le_antisymm within unread
  have path := (runFrom_parts automaton start first).2.2
  dsimp only
  rw [path, ← whole]
  unfold runFrom
  rw [String.toList_append, walk_append_of_read read]
  generalize (automaton.walk start first.toList).1 = reached
  dsimp only
  rw [getLast?_append_getD]
  -- What is read of the second word and where it ends are the same on both sides.
  rcases automaton.walk (reached.getLast?.getD start) second.toList with
    ⟨more, _ | ⟨symbol, left⟩⟩
  · dsimp only
    split <;> simp
  · simp

/-- If a run is stuck, the same run is reported whatever is written behind its
word.  Otherwise it goes on from the state that it ends in, and reports of the
longer word what the run of the rest from that state reports: the state where
it ends, whether that accepts, and the reason and the symbol if it does not.  The
paths are joined at the state that both have. -/
theorem run_append (automaton : Automaton) (first second : String) :
    ((automaton.run first).symbol ≠ none →
      automaton.run (first ++ second) = { automaton.run first with word := first ++ second }) ∧
    (automaton.start ≠ none → (automaton.run first).symbol = none →
      ∃ index, ∃ inside : index < automaton.states.length,
        (automaton.run first).finalState = some (automaton.nameAt index) ∧
        automaton.run (first ++ second) =
          { (automaton.withStart inside).run second with
            word := first ++ second
            path := (automaton.run first).path ++
              ((automaton.withStart inside).run second).path.tail
            consumed := first.length + ((automaton.withStart inside).run second).consumed }) := by
  cases begins : automaton.start with
  | none =>
    refine ⟨fun stuck => ?_, fun started => absurd rfl started⟩
    rw [run, begins] at stuck
    exact absurd rfl stuck
  | some start =>
    have runs : ∀ word, automaton.run word = automaton.runFrom start word := by
      intro word
      rw [run, begins]
    rcases runFrom_parts automaton start first with ⟨symbol, final, _⟩
    rw [runs, runs, symbol]
    constructor
    · intro stuck
      exact runFrom_append_of_stuck (fun read => stuck (by rw [read]; rfl)) second
    · intro _ read
      have bound := automaton.sound.start_bound start begins
      have inside := reach?_bound bound (reach?_walk automaton start first.toList)
      refine ⟨_, inside, final, ?_⟩
      rw [run_withStart]
      exact runFrom_append_of_read (List.head?_eq_none_iff.mp read) second

/-- A run that is stuck and one that goes on. -/
theorem run_append_cycle :
    ((cycle.run "xyx").symbol ≠ none ∧
      cycle.run ("xyx" ++ "x") = { cycle.run "xyx" with word := "xyx" ++ "x" }) ∧
    cycle.start ≠ none ∧ (cycle.run "xxx").symbol = none ∧
      ∃ index, ∃ inside : index < cycle.states.length,
        (cycle.run "xxx").finalState = some (cycle.nameAt index) ∧
        cycle.run ("xxx" ++ "yx") =
          { (cycle.withStart inside).run "yx" with
            word := "xxx" ++ "yx"
            path := (cycle.run "xxx").path ++ ((cycle.withStart inside).run "yx").path.tail
            consumed := "xxx".length + ((cycle.withStart inside).run "yx").consumed } := by
  have stuck : (cycle.run "xyx").symbol ≠ none := by decide +kernel
  have started : cycle.start ≠ none := by decide
  have read : (cycle.run "xxx").symbol = none := by decide +kernel
  exact ⟨⟨stuck, (run_append cycle "xyx" "x").1 stuck⟩, started, read,
    (run_append cycle "xxx" "yx").2 started read⟩

end Automaton
end FiniteAutomata
