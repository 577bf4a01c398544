import FiniteAutomata.Automaton.Run
import FiniteAutomata.Proofs.Automaton.Named

namespace FiniteAutomata
namespace Automaton

/-!
# Reached states

A word leads from a position to another one if every symbol of it has a move
where it is read; this is the step of one symbol, iterated.  A run follows the
beginnings of its word as long as they lead anywhere and reports the states in
between.  Since targets lie inside the arena, a run from a state only ever
meets states, and where it stops there is one.

The outcome of a run is said here of the beginnings of the word alone and not
of the order in which the run finds it.
-/

variable {automaton : Automaton} {index : Nat} {word : List Char}

/-- The position that a word leads to. -/
def reach? (automaton : Automaton) (index : Nat) (word : List Char) : Option Nat :=
  word.foldlM automaton.step index

theorem reach?_nil : automaton.reach? index [] = some index :=
  rfl

theorem reach?_cons {symbol : Char} {rest : List Char} :
    automaton.reach? index (symbol :: rest) =
      (automaton.step index symbol).bind fun next => automaton.reach? next rest :=
  rfl

/-! ## Positions stay inside the arena -/

theorem step_bound {symbol : Char} {next : Nat} (moved : automaton.step index symbol = some next) :
    next < automaton.states.length := by
  unfold step at moved
  split at moved
  · rename_i state held
    exact automaton.sound.targets_bound state (List.mem_of_getElem? held) _
      (State.mem_moves_of_target? moved)
  · cases moved

theorem reach?_bound (inside : index < automaton.states.length) {last : Nat}
    (reached : automaton.reach? index word = some last) : last < automaton.states.length := by
  induction word generalizing index with
  | nil => exact Option.some.inj reached ▸ inside
  | cons symbol rest inductionHypothesis =>
    rw [reach?_cons, Option.bind_eq_some_iff] at reached
    rcases reached with ⟨next, moved, later⟩
    exact inductionHypothesis (step_bound moved) later

/-- At a position inside the arena there is a state with the name that is
looked up there. -/
theorem exists_state_at (inside : index < automaton.states.length) :
    ∃ state, automaton.states[index]? = some state ∧ automaton.nameAt index = state.name := by
  have held := List.getElem?_eq_getElem inside
  exact ⟨automaton.states[index], held, by rw [nameAt, held]⟩

/-! ## What a walk follows -/

/-- A walk reads as many symbols as it reaches positions and leaves the rest
of the word. -/
theorem walk_unread (automaton : Automaton) (index : Nat) (word : List Char) :
    (automaton.walk index word).2 = word.drop (automaton.walk index word).1.length := by
  induction word generalizing index with
  | nil => rfl
  | cons symbol rest inductionHypothesis =>
    rw [walk]
    cases automaton.step index symbol with
    | none => rfl
    | some next => exact inductionHypothesis next

theorem length_walk_le (automaton : Automaton) (index : Nat) (word : List Char) :
    (automaton.walk index word).1.length ≤ word.length := by
  induction word generalizing index with
  | nil => exact Nat.le_refl 0
  | cons symbol rest inductionHypothesis =>
    rw [walk]
    cases automaton.step index symbol with
    | none => exact Nat.zero_le _
    | some next => exact Nat.succ_le_succ (inductionHypothesis next)

/-- The positions of a walk are those that the beginnings of its word lead to,
and the longer beginnings lead nowhere. -/
theorem reach?_take (automaton : Automaton) (index : Nat) (word : List Char) {count : Nat}
    (within : count ≤ word.length) : automaton.reach? index (word.take count) =
      (index :: (automaton.walk index word).1)[count]? := by
  induction word generalizing index count with
  | nil =>
    have first : count = 0 := Nat.le_zero.mp within
    rw [first]
    rfl
  | cons symbol rest inductionHypothesis =>
    cases count with
    | zero => rfl
    | succ fewer =>
      rw [List.take_succ_cons, reach?_cons, walk, List.getElem?_cons_succ]
      cases automaton.step index symbol with
      | none => rfl
      | some next => exact inductionHypothesis next (Nat.le_of_succ_le_succ within)

/-- The last position of a walk is where the symbols that it read lead to. -/
theorem reach?_walk (automaton : Automaton) (index : Nat) (word : List Char) :
    automaton.reach? index (word.take (automaton.walk index word).1.length) =
      some ((automaton.walk index word).1.getLast?.getD index) := by
  rw [reach?_take automaton index word (length_walk_le automaton index word)]
  generalize (automaton.walk index word).1 = reached
  rw [← List.getLast?_cons, List.getLast?_eq_getElem?]
  rfl

/-! ## What walks depend on -/

section

variable {first second : Automaton}

/-- A walk is settled by the states alone. -/
theorem walk_of_states (same : first.states = second.states) (index : Nat) (word : List Char) :
    first.walk index word = second.walk index word := by
  induction word generalizing index with
  | nil => rfl
  | cons symbol rest inductionHypothesis =>
    have step : first.step index symbol = second.step index symbol := by
      rw [Automaton.step, Automaton.step, same]
    rw [walk, walk, step]
    cases second.step index symbol with
    | none => rfl
    | some next =>
      dsimp only
      rw [inductionHypothesis]

theorem runFrom_of_states (same : first.states = second.states) (start : Nat) (word : String) :
    first.runFrom start word = second.runFrom start word := by
  have names : first.nameAt = second.nameAt := by
    funext index
    rw [nameAt, nameAt, same]
  have flags : first.acceptsAt = second.acceptsAt := by
    funext index
    rw [acceptsAt, acceptsAt, same]
  unfold runFrom
  rw [walk_of_states same, names, flags]

end

/-! ## The outcome of a run -/

/-- What a run from a position says of its word. -/
structure Reports (automaton : Automaton) (start : Nat) (word : String) (result : RunResult) :
    Prop where
  given : result.word = word
  within : result.consumed ≤ word.toList.length
  longest : ∀ count ≤ word.toList.length,
    ((automaton.reach? start (word.toList.take count)).isSome ↔ count ≤ result.consumed)
  path_length : result.path.length = result.consumed + 1
  path : ∀ count ≤ result.consumed, ∃ index state,
    automaton.reach? start (word.toList.take count) = some index ∧
      automaton.states[index]? = some state ∧ result.path[count]? = some state.name
  final : result.finalState = result.path.getLast?
  symbol : result.symbol = word.toList[result.consumed]?
  stuck : ∀ symbol name, result.reason = some (.noMove symbol name) ↔
    result.symbol = some symbol ∧ result.finalState = some name
  accepted : result.accepted = true ↔ result.consumed = word.toList.length ∧
    ∃ index state, automaton.reach? start word.toList = some index ∧
      automaton.states[index]? = some state ∧ state.accepting = true
  ended : ∀ name, result.reason = some (.notAccepting name) ↔
    result.symbol = none ∧ result.accepted = false ∧ result.finalState = some name
  reason : result.reason = none ↔ result.accepted = true

/-- The reason that a state with a name and a flag gives for a rejection, where
a symbol may be left unread. -/
def rejection? (name : String) (accepting : Bool) : Option Char → Option Rejection
  | some symbol => some (.noMove symbol name)
  | none => if accepting then none else some (.notAccepting name)

section

variable {name other : String} {accepting : Bool} {unread : Option Char}

theorem rejection?_eq_noMove_iff {symbol : Char} :
    rejection? name accepting unread = some (.noMove symbol other) ↔
      unread = some symbol ∧ name = other := by
  cases unread with
  | some left => simp [rejection?]
  | none => cases accepting <;> simp [rejection?]

theorem rejection?_eq_notAccepting_iff :
    rejection? name accepting unread = some (.notAccepting other) ↔
      unread = none ∧ accepting = false ∧ name = other := by
  cases unread with
  | some left => simp [rejection?]
  | none => cases accepting <;> simp [rejection?]

theorem rejection?_eq_none_iff :
    rejection? name accepting unread = none ↔ unread = none ∧ accepting = true := by
  cases unread with
  | some left => simp [rejection?]
  | none => cases accepting <;> simp [rejection?]

end

/-- A run is settled by the positions that it reaches, the first symbol that
it leaves unread and the state where it stops. -/
theorem runFrom_eq (automaton : Automaton) (start : Nat) (word : String) {reached : List Nat}
    (walked : (automaton.walk start word.toList).1 = reached) {last : State}
    (held : automaton.states[reached.getLast?.getD start]? = some last) :
    automaton.runFrom start word =
      ⟨word, word.toList[reached.length]?.isNone && last.accepting, some last.name,
        rejection? last.name last.accepting word.toList[reached.length]?,
        word.toList[reached.length]?, (start :: reached).map automaton.nameAt, reached.length⟩ := by
  have first := congrArg List.head? (walk_unread automaton start word.toList)
  rw [List.head?_drop, walked] at first
  have name : automaton.nameAt (reached.getLast?.getD start) = last.name := by rw [nameAt, held]
  have flag : automaton.acceptsAt (reached.getLast?.getD start) = last.accepting := by
    rw [acceptsAt, held]
  unfold runFrom
  generalize automaton.walk start word.toList = walk at walked first
  rcases walk with ⟨_, unread⟩
  cases walked
  dsimp only at first ⊢
  rw [name, flag, ← first]
  cases unread with
  | cons symbol rest => rfl
  | nil => cases last.accepting <;> rfl

/-- A run from inside the arena reports the beginnings of its word
faithfully. -/
theorem runFrom_reports {start : Nat} (inside : start < automaton.states.length) (word : String) :
    Reports automaton start word (automaton.runFrom start word) := by
  have within := length_walk_le automaton start word.toList
  have taken : ∀ count ≤ word.toList.length, automaton.reach? start (word.toList.take count) =
      (start :: (automaton.walk start word.toList).1)[count]? :=
    fun count bound => reach?_take automaton start word.toList bound
  have stopped := reach?_walk automaton start word.toList
  -- All that is reported follows from the positions reached and the state at the last one.
  rcases exists_state_at (reach?_bound inside stopped) with ⟨last, held, name⟩
  rw [runFrom_eq automaton start word rfl held]
  generalize (automaton.walk start word.toList).1 = reached at within taken stopped held name ⊢
  exact {
    given := rfl
    within := within
    longest := by
      intro count bound
      rw [taken count bound, isSome_getElem?]
      exact Nat.lt_succ_iff
    path_length := by simp
    path := by
      intro count bound
      have read := taken count (Nat.le_trans bound within)
      have present : count < (start :: reached).length := Nat.lt_succ_of_le bound
      rw [List.getElem?_eq_getElem present] at read
      rcases exists_state_at (reach?_bound inside read) with ⟨state, found, called⟩
      refine ⟨_, state, read, found, ?_⟩
      rw [List.getElem?_map, List.getElem?_eq_getElem present, Option.map_some, called]
    final := by rw [List.getLast?_map, List.getLast?_cons, Option.map_some, name]
    symbol := rfl
    stuck := by
      intro symbol called
      rw [rejection?_eq_noMove_iff, Option.some.injEq]
    accepted := by
      rw [Bool.and_eq_true, Option.isNone_iff_eq_none, List.getElem?_eq_none_iff]
      constructor
      · rintro ⟨covered, accepts⟩
        have whole : reached.length = word.toList.length := Nat.le_antisymm within covered
        rw [whole, List.take_length] at stopped
        exact ⟨whole, _, last, stopped, held, accepts⟩
      · rintro ⟨whole, final, state, reaches, found, accepts⟩
        rw [show reached.length = word.toList.length from whole, List.take_length] at stopped
        cases stopped.symm.trans reaches
        cases held.symm.trans found
        exact ⟨Nat.le_of_eq whole.symm, accepts⟩
    ended := by
      intro called
      rw [rejection?_eq_notAccepting_iff, Option.some.injEq]
      refine and_congr_right fun unread => ?_
      simp only [unread, Option.isNone_none, Bool.true_and]
    reason := by
      rw [rejection?_eq_none_iff, Bool.and_eq_true, Option.isNone_iff_eq_none] }

/-- Without a start state a word is rejected before any of it is read.
Otherwise the run follows the longest beginning of the word that leads
anywhere, and accepts if that is the whole word and the state reached is
accepting; so the empty word is accepted exactly if the start state is. -/
theorem run_reports (automaton : Automaton) (word : String) :
    (automaton.start = none →
      automaton.run word = ⟨word, false, none, some .noStart, none, [], 0⟩) ∧
    (∀ start, automaton.start = some start → start < automaton.states.length ∧
      Reports automaton start word (automaton.run word)) ∧
    (automaton.accepts "" = true ↔
      ∃ state, automaton.startState? = some state ∧ state.accepting = true) := by
  have started : ∀ start, automaton.start = some start → ∀ given,
      Reports automaton start given (automaton.run given) := by
    intro start begins given
    rw [run, begins]
    exact runFrom_reports (automaton.sound.start_bound start begins) given
  refine ⟨?_, ?_, ?_⟩
  · intro startless
    rw [run, startless]
  · intro start begins
    exact ⟨automaton.sound.start_bound start begins, started start begins word⟩
  · rw [accepts]
    cases begins : automaton.start with
    | none => simp [run, startState?, begins]
    | some start =>
      have reports := started start begins ""
      have unread : (automaton.run "").consumed = 0 := Nat.le_zero.mp reports.within
      rw [reports.accepted, startState?, begins]
      simp [unread, reach?_nil]

/-- A cycle of two states, of which the second is accepting, and a state
behind it that has no moves. -/
def cycle : Automaton :=
  ⟨[⟨"even", false, [('x', 1)]⟩, ⟨"odd", true, [('x', 0), ('y', 2)]⟩, ⟨"end", false, []⟩],
    ['x', 'y'], some 0, by constructor <;> decide⟩

/-- One accepting state that is not made the start. -/
def startless : Automaton :=
  ⟨[⟨"only", true, [('x', 0)]⟩], ['x'], none, by constructor <;> decide⟩

theorem run_reports_cycle : cycle.start = some 0 ∧
    cycle.run "xxxyx" = ⟨"xxxyx", false, some "end", some (.noMove 'x' "end"), some 'x',
      ["even", "odd", "even", "odd", "end"], 4⟩ ∧
      Reports cycle 0 "xxxyx" (cycle.run "xxxyx") ∧ ¬ cycle.accepts "" = true ∧
        startless.start = none ∧
          startless.run "x" = ⟨"x", false, none, some .noStart, none, [], 0⟩ := by
  have reports := run_reports cycle "xxxyx"
  refine ⟨rfl, by decide +kernel, (reports.2.1 0 rfl).2, ?_, rfl,
    (run_reports startless "x").1 rfl⟩
  rw [reports.2.2]
  rintro ⟨state, begins, accepts⟩
  cases begins
  cases accepts

end Automaton
end FiniteAutomata
