import FiniteAutomata.Proofs.Specification.Malformed
import FiniteAutomata.Proofs.Specification.Meaning

namespace FiniteAutomata
namespace Specification

/-!
# Move lines are recognised exactly

A move line is four stretches of text between its marks: the source, the
symbol, the gap in front of the arrow, and the target.  The marks may occur
again inside of the stretches, a comma or a parenthesis as the symbol or an
arrow's point at the beginning of the target.  Still a line has at most one
decomposition, it is read as the move of its decomposition, and without one it
is refused as malformed.
-/

open Text (Padded isBlank trimmed)

/-! ## Decompositions -/

/-- What stands between the marks of a move line, with its blanks. -/
structure Stretches where
  source : List Char
  symbol : List Char
  gap : List Char
  target : List Char
deriving DecidableEq, Repr

namespace Stretches

/-- The part of a move line in front of its arrow. -/
def front (stretches : Stretches) : List Char :=
  '(' :: stretches.source ++ ',' :: stretches.symbol ++ ')' :: stretches.gap

/-- The move line of stretches. -/
def text (stretches : Stretches) : List Char :=
  stretches.front ++ '-' :: '>' :: stretches.target

end Stretches

/-- A line is the move line of stretches that hold a state, a symbol and a
state, each with blanks around it, and it has no arrow but the one behind the
gap. -/
structure Decomposes (line : List Char) (stretches : Stretches) (move : String × Char × String) :
    Prop where
  whole : line = stretches.text
  arrows : Text.arrows line = 1
  gap_blank : ∀ c ∈ stretches.gap, isBlank c = true
  source : Padded stretches.source move.1.toList
  source_nonempty : move.1 ≠ ""
  source_trimmed : trimmed move.1.toList = move.1.toList
  source_clear : ',' ∉ move.1.toList
  symbol : Padded stretches.symbol [move.2.1]
  symbol_solid : isBlank move.2.1 = false
  target : Padded stretches.target move.2.2.toList
  target_nonempty : move.2.2 ≠ ""
  target_trimmed : trimmed move.2.2.toList = move.2.2.toList

theorem isBlank_of_trimmed_singleton {c : Char} (solid : trimmed [c] = [c]) : isBlank c = false :=
  Text.isBlank_of_head?_trimmed (by rw [solid]; rfl)

/-- A comma in a padded text is no padding. -/
theorem comma_notMem_of_padded {padded core : List Char} (around : Padded padded core)
    (clear : ',' ∉ core) : ',' ∉ padded := by
  rcases around with ⟨before, after, rfl, blankBefore, blankAfter⟩
  intro member
  rcases List.mem_append.mp member with inFront | behind
  · rcases List.mem_append.mp inFront with blank | inside
    · exact absurd (blankBefore ',' blank) (by decide)
    · exact clear inside
  · exact absurd (blankAfter ',' behind) (by decide)

/-- A line that denotes a move is decomposed at the marks that denote it. -/
theorem exists_decomposes {line : List Char} {move : String × Char × String}
    (denoted : Denotes line move) : ∃ stretches, Decomposes line stretches move := by
  rcases denoted with ⟨hasSource, _, hasTarget, before, behind, gap, after, whole, freeFront,
    freeAfter, noComma, blankGap, source, symbol, target⟩
  rw [String.toList_singleton] at symbol
  rcases Text.trimmed_eq_iff.mp source with ⟨sourcePadded, sourceTrimmed⟩
  rcases Text.trimmed_eq_iff.mp symbol with ⟨symbolPadded, symbolTrimmed⟩
  rcases Text.trimmed_eq_iff.mp target with ⟨targetPadded, targetTrimmed⟩
  exact ⟨⟨before, behind, gap, after⟩, {
    whole := whole
    arrows := whole ▸ Text.arrows_eq_one_iff.mpr ⟨freeFront, freeAfter⟩
    gap_blank := blankGap
    source := sourcePadded
    source_nonempty := hasSource
    source_trimmed := sourceTrimmed
    source_clear := by
      rw [← source]
      exact fun member => noComma (Text.mem_of_mem_trimmed member)
    symbol := symbolPadded
    symbol_solid := isBlank_of_trimmed_singleton symbolTrimmed
    target := targetPadded
    target_nonempty := hasTarget
    target_trimmed := targetTrimmed }⟩

namespace Decomposes

variable {line : List Char} {first second : Stretches} {move other : String × Char × String}

/-- Neither the front nor the target of a decomposed line has an arrow. -/
theorem arrowFree (decomposed : Decomposes line first move) :
    Text.ArrowFree first.front ∧ Text.ArrowFree first.target := by
  have single := decomposed.arrows
  rw [decomposed.whole, Stretches.text] at single
  exact Text.arrows_eq_one_iff.mp single

/-- The first comma of a decomposed line is the one behind its source. -/
theorem comma_notMem (decomposed : Decomposes line first move) : ',' ∉ first.source :=
  comma_notMem_of_padded decomposed.source decomposed.source_clear

/-- A decomposed line denotes the move of its decomposition. -/
theorem denotes (decomposed : Decomposes line first move) : Denotes line move where
  source_nonempty := decomposed.source_nonempty
  token_nonempty := by simp
  target_nonempty := decomposed.target_nonempty
  written := by
    rcases decomposed.arrowFree with ⟨freeFront, freeTarget⟩
    refine ⟨first.source, first.symbol, first.gap, first.target, decomposed.whole, freeFront,
      freeTarget, decomposed.comma_notMem, decomposed.gap_blank, ?_, ?_, ?_⟩
    · exact Text.trimmed_eq_iff.mpr ⟨decomposed.source, decomposed.source_trimmed⟩
    · rw [String.toList_singleton]
      exact Text.trimmed_eq_iff.mpr
        ⟨decomposed.symbol, Text.trimmed_singleton decomposed.symbol_solid⟩
    · exact Text.trimmed_eq_iff.mpr ⟨decomposed.target, decomposed.target_trimmed⟩

/-- A line is decomposed in one way only.  The arrow parts the front from the
target, the last parenthesis of the front ends the symbol, and the first comma
ends the source. -/
theorem unique (decomposed : Decomposes line first move) (again : Decomposes line second other) :
    first = second ∧ move = other := by
  have halves : [first.front, first.target] = [second.front, second.target] := by
    rw [← Text.splitArrows_eq_pair_iff.mpr ⟨decomposed.whole, decomposed.arrowFree⟩,
      ← Text.splitArrows_eq_pair_iff.mpr ⟨again.whole, again.arrowFree⟩]
  rcases List.cons.inj halves with ⟨fronts, targets⟩
  have inside : ∀ {stretches : Stretches}, (∀ c ∈ stretches.gap, isBlank c = true) →
      trimmed stretches.front =
        '(' :: (stretches.source ++ ',' :: stretches.symbol) ++ [')'] := by
    intro stretches blank
    rw [← Specification.source_trimmed blank, Stretches.front]
    simp
  have inner := (inside decomposed.gap_blank).symm.trans (fronts ▸ inside again.gap_blank)
  have parts := List.append_inj_left' (List.cons.inj inner).2 rfl
  rcases Text.append_mark_inj decomposed.comma_notMem again.comma_notMem parts with
    ⟨sources, symbols⟩
  have gaps : first.gap = second.gap := by
    rw [Stretches.front, Stretches.front, sources, symbols] at fronts
    exact (List.cons.inj (List.append_cancel_left fronts)).2
  refine ⟨?_, denotes_functional decomposed.denotes again.denotes⟩
  cases first
  cases second
  simp_all

end Decomposes

/-! ## Recognition -/

/-- A line that begins with a parenthesis is read as a move exactly if it is
decomposed as that move, and a line has one decomposition at most.  Every other
such line is malformed.  What is read of a line is all that the draft is given
of it. -/
theorem readMove_recognizes (rest : List Char) :
    (∀ move, readMove false ('(' :: rest) = .ok move ↔
      ∃ stretches, Decomposes ('(' :: rest) stretches move) ∧
    (∀ first second move other, Decomposes ('(' :: rest) first move →
      Decomposes ('(' :: rest) second other → first = second ∧ move = other) ∧
    ((¬ ∃ stretches move, Decomposes ('(' :: rest) stretches move) →
      ∃ malformation, readMove false ('(' :: rest) = .error malformation) ∧
    ∀ number draft, (addEdge false number ('(' :: rest) draft).result =
      match readMove false ('(' :: rest) with
      | .ok (source, symbol, target) => draft.addMove source (String.singleton symbol) target
      | .error malformation => .error (.malformed malformation) := by
  have recognized : ∀ move, readMove false ('(' :: rest) = .ok move ↔
      ∃ stretches, Decomposes ('(' :: rest) stretches move := by
    intro move
    rw [readMove_eq_ok_iff_denotes ⟨rest, rfl⟩]
    exact ⟨exists_decomposes, fun ⟨_, decomposed⟩ => decomposed.denotes⟩
  refine ⟨recognized, fun first second move other => Decomposes.unique, ?_, ?_⟩
  · intro foreign
    rcases read_or_malformed ('(' :: rest) with ⟨move, read⟩ | ⟨malformation, malformed⟩
    · rcases (recognized move).mp read with ⟨stretches, decomposed⟩
      exact absurd ⟨stretches, move, decomposed⟩ foreign
    · exact ⟨malformation, readMove_of_malformed malformed⟩
  · intro number draft
    rw [addEdge_result, Line.apply]
    cases readMove false ('(' :: rest) <;> rfl

/-- What is behind the first parenthesis of a line with marks in its source, its
symbol and its target. -/
def crowdedRest : List Char :=
  " a( b ,  )  )\t->>q".toList

/-- What is behind the first parenthesis of a line with two arrows. -/
def twoArrowsRest : List Char :=
  "p, a)->q->q".toList

theorem readMove_recognizes_crowded :
    (∃ stretches, Decomposes ('(' :: crowdedRest) stretches ("a( b", ')', ">q") ∧
      ∀ other move, Decomposes ('(' :: crowdedRest) other move → other = stretches) ∧
    ∃ malformation, readMove false ('(' :: twoArrowsRest) = .error malformation := by
  have read : readMove false ('(' :: crowdedRest) = .ok ("a( b", ')', ">q") := by decide +kernel
  have arrows : Text.arrows ('(' :: twoArrowsRest) = 2 := by decide +kernel
  rcases readMove_recognizes crowdedRest with ⟨recognized, unique, _⟩
  rcases (recognized _).mp read with ⟨stretches, decomposed⟩
  refine ⟨⟨stretches, decomposed, fun other move again => ?_⟩, ?_⟩
  · exact (unique _ _ _ _ again decomposed).1
  · apply (readMove_recognizes twoArrowsRest).2.2.1
    rintro ⟨other, move, again⟩
    have single := again.arrows
    omega

end Specification
end FiniteAutomata
