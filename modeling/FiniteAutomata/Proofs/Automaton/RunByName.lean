import FiniteAutomata.Proofs.Automaton.NameView
import FiniteAutomata.Proofs.Automaton.Reached

namespace FiniteAutomata
namespace Automaton

/-!
# Runs depend on names alone

Two automata may hold their states in different orders, with other states among
them, other orders of moves and other alphabets.  As long as the start, the
accepting states and the transitions have the same names, a run of the one goes
through states of the same names as a run of the other, and both report the
same of every word.
-/

/-- Two automata that cannot be told apart by the names of their start, of
their accepting states and of their transitions. -/
structure SameByName (first second : Automaton) : Prop where
  start : first.startState?.map State.name = second.startState?.map State.name
  accepting : ∀ name, name ∈ first.acceptingStates.map State.name ↔
    name ∈ second.acceptingStates.map State.name
  transitions : ∀ move, move ∈ first.transitions ↔ move ∈ second.transitions

/-- A position of one automaton and a position of another hold states of one
name. -/
structure Corresponds (first second : Automaton) (index other : Nat) : Prop where
  inside : index < first.states.length
  otherInside : other < second.states.length
  name : first.nameAt index = second.nameAt other

variable {first second : Automaton} {index other : Nat}

theorem SameByName.symm (same : SameByName first second) : SameByName second first where
  start := same.start.symm
  accepting := fun name => (same.accepting name).symm
  transitions := fun move => (same.transitions move).symm

theorem Corresponds.symm (matched : Corresponds first second index other) :
    Corresponds second first other index where
  inside := matched.otherInside
  otherInside := matched.inside
  name := matched.name.symm

/-- Positions that correspond one by one end in positions that correspond. -/
theorem corresponds_last (matched : Corresponds first second index other)
    {reached otherReached : List Nat}
    (alike : List.Forall₂ (Corresponds first second) reached otherReached) :
    Corresponds first second (reached.getLast?.getD index) (otherReached.getLast?.getD other) := by
  induction alike generalizing index other with
  | nil => exact matched
  | cons here _ inductionHypothesis =>
    rw [List.getLast?_cons, List.getLast?_cons]
    exact inductionHypothesis here

namespace SameByName

/-! ## One step -/

theorem acceptsAt (same : SameByName first second)
    (matched : Corresponds first second index other) :
    first.acceptsAt index = second.acceptsAt other := by
  rw [Bool.eq_iff_iff, acceptsAt_iff matched.inside, acceptsAt_iff matched.otherInside,
    matched.name, same.accepting]

/-- A step is a transition of both automata, and its target has a name in
both. -/
theorem step (same : SameByName first second) (matched : Corresponds first second index other)
    {symbol : Char} {next : Nat} (moved : first.step index symbol = some next) :
    ∃ otherNext, second.step other symbol = some otherNext ∧
      Corresponds first second next otherNext := by
  rcases (step_eq_some_iff matched.inside).mp moved with ⟨nextInside, transition⟩
  rw [matched.name, same.transitions] at transition
  rcases exists_position (names_of_mem_transitions transition).2 with
    ⟨otherNext, otherNextInside, target⟩
  refine ⟨otherNext, ?_, nextInside, otherNextInside, target.symm⟩
  rw [step_eq_some_iff matched.otherInside, target]
  exact ⟨otherNextInside, transition⟩

/-- Where one automaton is stuck, so is the other. -/
theorem stuck (same : SameByName first second) (matched : Corresponds first second index other)
    {symbol : Char} (ends : first.step index symbol = none) : second.step other symbol = none := by
  cases moved : second.step other symbol with
  | none => rfl
  | some next =>
    rcases same.symm.step matched.symm moved with ⟨back, follows, _⟩
    cases ends.symm.trans follows

/-! ## Whole runs -/

/-- Walks from positions of one name go through positions of the same names
and leave the same part of the word. -/
theorem walk (same : SameByName first second) (matched : Corresponds first second index other)
    (word : List Char) :
    List.Forall₂ (Corresponds first second) (first.walk index word).1
        (second.walk other word).1 ∧
      (first.walk index word).2 = (second.walk other word).2 := by
  induction word generalizing index other with
  | nil => exact ⟨.nil, rfl⟩
  | cons symbol rest inductionHypothesis =>
    rw [Automaton.walk, Automaton.walk]
    cases moved : first.step index symbol with
    | none =>
      rw [same.stuck matched moved]
      exact ⟨.nil, rfl⟩
    | some next =>
      rcases same.step matched moved with ⟨otherNext, follows, later⟩
      rw [follows]
      rcases inductionHypothesis later with ⟨reached, unread⟩
      exact ⟨.cons later reached, unread⟩

theorem runFrom (same : SameByName first second) (matched : Corresponds first second index other)
    (word : String) : first.runFrom index word = second.runFrom other word := by
  rcases same.walk matched word.toList with ⟨reached, unread⟩
  have last := corresponds_last matched reached
  have path : (index :: (first.walk index word.toList).1).map first.nameAt =
      (other :: (second.walk other word.toList).1).map second.nameAt := by
    rw [← List.forall₂_eq_eq_eq, List.forall₂_map_left_iff, List.forall₂_map_right_iff]
    exact (List.Forall₂.cons matched reached).imp fun _ _ here => here.name
  unfold Automaton.runFrom
  dsimp only
  rw [path, unread, reached.length_eq, last.name, same.acceptsAt last]

end SameByName

/-- Automata that are the same by name report the same of every word: the
verdict, where the run stops and why, the states on the way and how much of the
word is read. -/
theorem run_eq_of_sameByName {first second : Automaton} (same : SameByName first second)
    (word : String) : first.run word = second.run word := by
  have started := same.start
  unfold run
  unfold startState? at started
  cases begins : first.start with
  | none =>
    cases otherBegins : second.start with
    | none => rfl
    | some other =>
      have inside := second.sound.start_bound other otherBegins
      simp [begins, otherBegins, inside] at started
  | some index =>
    have inside := first.sound.start_bound index begins
    cases otherBegins : second.start with
    | none => simp [begins, otherBegins, inside] at started
    | some other =>
      have otherInside := second.sound.start_bound other otherBegins
      refine same.runFrom ⟨inside, otherInside, ?_⟩ word
      rw [nameAt_eq_getElem inside, nameAt_eq_getElem otherInside]
      simpa [begins, otherBegins, inside, otherInside] using started

/-- The cycle with its states and moves in another order, a state that nothing
leads to, and another alphabet. -/
def rearranged : Automaton :=
  ⟨[⟨"end", false, []⟩, ⟨"odd", true, [('y', 0), ('x', 3)]⟩, ⟨"spare", false, []⟩,
      ⟨"even", false, [('x', 1)]⟩],
    ['z'], some 3, by constructor <;> decide⟩

theorem run_eq_of_sameByName_rearranged : SameByName cycle rearranged ∧
    cycle.run "xxxyx" = rearranged.run "xxxyx" ∧
      (rearranged.run "xxxyx").path = ["even", "odd", "even", "odd", "end"] := by
  have names : cycle.acceptingStates.map State.name =
      rearranged.acceptingStates.map State.name := by decide
  have moves : cycle.transitions.Perm rearranged.transitions := by decide
  have same : SameByName cycle rearranged :=
    ⟨by decide, fun name => by rw [names], fun move => moves.mem_iff⟩
  exact ⟨same, run_eq_of_sameByName same "xxxyx", by decide +kernel⟩

end Automaton
end FiniteAutomata
