import FiniteAutomata.Proofs.Automaton.Reached
import FiniteAutomata.Proofs.Specification.RoundTrip

namespace FiniteAutomata
namespace Specification

/-!
# Round trips of drafts

Every draft can be built, but not everything that is built comes back from its
written specification.  The checks of a draft let three things pass that a line
cannot carry: a line break inside a name, a blank as the symbol of a move, and
a line break among the symbols of the alphabet with other symbols behind it.
Without these three a draft comes back, and with any of them it does not.
-/

open Text (Unbroken isBlank isLineBreak)

/-! ## The alphabet does not matter to runs -/

theorem run_withAlphabet {automaton : Automaton} {alphabet : List Char}
    (distinct : alphabet.Nodup) (word : String) :
    (automaton.withAlphabet distinct).run word = automaton.run word := by
  have start : (automaton.withAlphabet distinct).start = automaton.start := rfl
  have states : (automaton.withAlphabet distinct).states = automaton.states := rfl
  unfold Automaton.run
  rw [start]
  cases automaton.start with
  | none => rfl
  | some index => exact Automaton.runFrom_of_states states index word

theorem accepts_withAlphabet {automaton : Automaton} {alphabet : List Char}
    (distinct : alphabet.Nodup) (word : String) :
    (automaton.withAlphabet distinct).accepts word = automaton.accepts word :=
  congrArg RunResult.accepted (run_withAlphabet distinct word)

/-! ## What comes back -/

/-- What an automaton keeps on the way through its written specification. -/
structure Kept (automaton again : Automaton) : Prop where
  names : again.stateNames = automaton.stateNames
  flags : again.states.map State.accepting = automaton.states.map State.accepting
  start : again.start = automaton.start
  transitions : ∀ move, move ∈ again.transitions ↔ move ∈ automaton.transitions
  language : ∀ word, again.accepts word = automaton.accepts word
  alphabet : again.alphabet = automaton.alphabet.filter fun symbol => !isListMark symbol

/-- An automaton comes back from its written specification, with the symbols
that are no marks. -/
def ComesBack (automaton : Automaton) : Prop :=
  ∃ again, (read false (write automaton)).result = .ok again ∧ Kept automaton again

/-- No symbol but marks is lost to the alphabet line exactly if all symbols from
the first line break on are marks. -/
theorem carried_eq_filter_iff {alphabet : List Char} :
    carried alphabet = alphabet.filter (fun symbol => !isListMark symbol) ↔
      ∀ symbol ∈ alphabet.dropWhile fun c => !isLineBreak c, isListMark symbol = true := by
  have parts : alphabet.filter (fun symbol => !isListMark symbol) = carried alphabet ++
      (alphabet.dropWhile fun c => !isLineBreak c).filter fun symbol => !isListMark symbol := by
    rw [carried, ← List.filter_append, List.takeWhile_append_dropWhile]
  rw [parts, List.self_eq_append_right, List.filter_eq_nil_iff]
  simp

/-- A draft can be built whatever was asked of it, and what is built comes back
exactly if none of its names breaks a line, none of its moves reads a blank,
and its alphabet has only marks from the first line break on. -/
theorem built_comesBack_iff (calls : List Draft.Call) :
    ∃ automaton, (Draft.empty.after calls).build = .ok automaton ∧
      (ComesBack automaton ↔
        (∀ name ∈ automaton.stateNames, Unbroken name.toList) ∧
          (∀ move ∈ automaton.transitions, isBlank move.2.1 = false) ∧
            ∀ symbol ∈ automaton.alphabet.dropWhile fun c => !isLineBreak c,
              isListMark symbol = true) := by
  have proper := Draft.Proper.empty.after calls
  refine ⟨proper.automaton, proper.build, ?_, ?_⟩
  · rintro ⟨again, readable, kept⟩
    have given := writable_of_read readable
    have writable : Writable proper.automaton :=
      ⟨proper.fits, kept.names ▸ given.unbroken,
        fun move member => given.solid move ((kept.transitions move).mpr member)⟩
    refine ⟨writable.unbroken, writable.solid, ?_⟩
    rw [read_write writable] at readable
    rw [← carried_eq_filter_iff, ← kept.alphabet, ← Except.ok.inj readable]
    rfl
  · rintro ⟨unbroken, solid, behind⟩
    have writable : Writable proper.automaton := ⟨proper.fits, unbroken, solid⟩
    refine ⟨_, read_write writable false, ?_⟩
    exact {
      names := rfl
      flags := rfl
      start := rfl
      transitions := fun _ => Iff.rfl
      language := accepts_withAlphabet _
      alphabet := carried_eq_filter_iff.mpr behind }

/-- One state whose name goes over two lines. -/
def twoLineCalls : List Draft.Call :=
  [.addState "a\nb" false, .setAccepting "a\nb" true, .setStart "a\nb"]

def twoLines : Automaton :=
  (Draft.Proper.empty.after twoLineCalls).automaton

/-- The name is taken by the draft, and another name comes back. -/
theorem built_not_comesBack : (Draft.empty.after twoLineCalls).build = .ok twoLines ∧
    twoLines.stateNames = ["a\nb"] ∧
      (read false (write twoLines)).result.map Automaton.stateNames = .ok ["a"] ∧
        ¬ ComesBack twoLines := by
  have names : twoLines.stateNames = ["a\nb"] := by decide +kernel
  have others : (read false (write twoLines)).result.map Automaton.stateNames = .ok ["a"] := by
    decide +kernel
  refine ⟨Draft.Proper.build _, names, others, ?_⟩
  rintro ⟨again, readable, kept⟩
  rw [readable] at others
  have same := kept.names.symm.trans (Except.ok.inj others)
  rw [names] at same
  exact absurd same (by decide)

end Specification
end FiniteAutomata
