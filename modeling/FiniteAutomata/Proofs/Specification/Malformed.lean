import FiniteAutomata.Proofs.Specification.Edge

namespace FiniteAutomata
namespace Specification

/-!
# Malformed move lines

A line that should describe a move can fail to do so in seven ways, which are
looked for in a fixed order: the arrow, the parentheses in front of it, the
comma between them, and then the three parts and the length of the symbol.
`Malformed` says each of them of the text alone, without the order of the
reader's steps, and exactly one of them holds of a line that is not read.
-/

open Text (ArrowFree trimmed)

/-- A line is cut in two by the only arrow in it. -/
structure Halved (line left right : List Char) : Prop where
  whole : line = left ++ '-' :: '>' :: right
  left_free : ArrowFree left
  right_free : ArrowFree right

/-- In front of its arrow a line has parentheses, and the first comma between
them parts what is inside. -/
def Parted (line before behind after : List Char) : Prop :=
  ∃ left, Halved line left after ∧ trimmed left = '(' :: (before ++ ',' :: behind) ++ [')'] ∧
    ',' ∉ before

/-- What keeps a line from describing a move. -/
inductive Malformed (line : List Char) : Malformation → Prop
  | arrowCount (uncut : ∀ left right, ¬ Halved line left right) : Malformed line .arrowCount
  | sourceShape {left right : List Char} (halved : Halved line left right)
      (bare : ∀ inner, trimmed left ≠ '(' :: inner ++ [')']) : Malformed line .sourceShape
  | commaMissing {left right inner : List Char} (halved : Halved line left right)
      (inside : trimmed left = '(' :: inner ++ [')']) (unparted : ',' ∉ inner) :
      Malformed line .commaMissing
  | stateMissing {before behind after : List Char} (parted : Parted line before behind after)
      (state : trimmed before = []) : Malformed line .stateMissing
  | symbolMissing {before behind after : List Char} (parted : Parted line before behind after)
      (state : trimmed before ≠ []) (symbol : trimmed behind = []) : Malformed line .symbolMissing
  | targetMissing {before behind after : List Char} (parted : Parted line before behind after)
      (state : trimmed before ≠ []) (symbol : trimmed behind ≠ []) (target : trimmed after = []) :
      Malformed line .targetMissing
  | longSymbol {before behind after : List Char} (parted : Parted line before behind after)
      (state : trimmed before ≠ []) (symbol : 1 < (trimmed behind).length)
      (target : trimmed after ≠ []) : Malformed line (.longSymbol (String.ofList (trimmed behind)))

/-! ## The parts of a line -/

theorem splitArrows_eq_iff_halved {line left right : List Char} :
    Text.splitArrows line = [left, right] ↔ Halved line left right := by
  rw [Text.splitArrows_eq_pair_iff]
  exact ⟨fun ⟨whole, free, clear⟩ => ⟨whole, free, clear⟩,
    fun halved => ⟨halved.whole, halved.left_free, halved.right_free⟩⟩

/-- A parted line is settled by what is left of its parts without blanks. -/
theorem ofLine_of_parted {line before behind after : List Char}
    (parted : Parted line before behind after) : Edge.ofLine line =
      if trimmed before = [] then .error .stateMissing
      else if trimmed behind = [] then .error .symbolMissing
      else if trimmed after = [] then .error .targetMissing
      else .ok ⟨String.ofList (trimmed before), String.ofList (trimmed behind),
        String.ofList (trimmed after)⟩ := by
  rcases parted with ⟨left, halved, inside, first⟩
  have pieces := splitArrows_eq_iff_halved.mpr halved
  have inner := insideParentheses?_eq_some_iff.mpr inside
  have cut : Text.cutAt ',' (before ++ ',' :: behind) = some (before, behind) :=
    Text.cutAt_eq_some_iff.mpr ⟨rfl, first⟩
  unfold Edge.ofLine
  simp only [pieces, inner, cut, String.isEmpty_iff, String.ofList_eq_empty_iff]

/-- A token of several characters is no symbol, unless it is cut. -/
theorem symbol_of_long {edge : Edge} (long : 1 < edge.token.toList.length) :
    edge.symbol false = .error (.longSymbol edge.token) := by
  unfold Edge.symbol
  split
  · rename_i shape
    simp [shape] at long
  · rename_i shape
    simp [shape] at long
  · rfl

/-! ## Reading a malformed line -/

theorem readMove_of_malformed {line : List Char} {malformation : Malformation}
    (malformed : Malformed line malformation) : readMove false line = .error malformation := by
  cases malformed with
  | arrowCount uncut =>
    have fails : Edge.ofLine line = .error .arrowCount := by
      unfold Edge.ofLine
      split
      · rename_i left right pieces
        exact absurd (splitArrows_eq_iff_halved.mp pieces) (uncut left right)
      · rfl
    rw [readMove, fails]
  | sourceShape halved bare =>
    rename_i left right
    have outside : insideParentheses? (trimmed left) = none := by
      rw [Option.eq_none_iff_forall_ne_some]
      exact fun inner found => bare inner (insideParentheses?_eq_some_iff.mp found)
    have fails : Edge.ofLine line = .error .sourceShape := by
      unfold Edge.ofLine
      simp only [splitArrows_eq_iff_halved.mpr halved, outside]
    rw [readMove, fails]
  | commaMissing halved inside unparted =>
    have fails : Edge.ofLine line = .error .commaMissing := by
      unfold Edge.ofLine
      simp only [splitArrows_eq_iff_halved.mpr halved, insideParentheses?_eq_some_iff.mpr inside,
        Text.cutAt_eq_none_iff.mpr unparted]
    rw [readMove, fails]
  | stateMissing parted state => rw [readMove, ofLine_of_parted parted, if_pos state]
  | symbolMissing parted state symbol =>
    rw [readMove, ofLine_of_parted parted, if_neg state, if_pos symbol]
  | targetMissing parted state symbol target =>
    rw [readMove, ofLine_of_parted parted, if_neg state, if_neg symbol, if_pos target]
  | longSymbol parted state symbol target =>
    have present : trimmed _ ≠ [] := List.ne_nil_of_length_pos (Nat.zero_lt_of_lt symbol)
    rw [readMove, ofLine_of_parted parted, if_neg state, if_neg present, if_neg target]
    dsimp only
    rw [symbol_of_long (by simpa using symbol)]

/-- A parted line is read, or it lacks a part or has too long a symbol. -/
theorem read_or_malformed_of_parted {line before behind after : List Char}
    (parted : Parted line before behind after) :
    (∃ move, readMove false line = .ok move) ∨ ∃ malformation, Malformed line malformation := by
  by_cases state : trimmed before = []
  · exact .inr ⟨_, .stateMissing parted state⟩
  by_cases missing : trimmed behind = []
  · exact .inr ⟨_, .symbolMissing parted state missing⟩
  by_cases target : trimmed after = []
  · exact .inr ⟨_, .targetMissing parted state missing target⟩
  by_cases long : 1 < (trimmed behind).length
  · exact .inr ⟨_, .longSymbol parted state long target⟩
  · left
    have single : (trimmed behind).length = 1 := by
      have present := List.length_pos_of_ne_nil missing
      omega
    rcases List.length_eq_one_iff.mp single with ⟨symbol, shape⟩
    have token : String.ofList (trimmed behind) = String.singleton symbol := by rw [shape]; rfl
    have edge := ofLine_of_parted parted
    rw [if_neg state, if_neg missing, if_neg target] at edge
    exact ⟨(String.ofList (trimmed before), symbol, String.ofList (trimmed after)),
      readMove_eq_ok_iff.mpr ⟨_, edge, Edge.symbol_of_singleton token false, rfl, rfl⟩⟩

theorem read_or_malformed (line : List Char) :
    (∃ move, readMove false line = .ok move) ∨ ∃ malformation, Malformed line malformation := by
  by_cases cut : ∃ left right, Halved line left right
  · rcases cut with ⟨left, right, halved⟩
    by_cases wrapped : ∃ inner, trimmed left = '(' :: inner ++ [')']
    · rcases wrapped with ⟨inner, inside⟩
      cases comma : Text.cutAt ',' inner with
      | none => exact .inr ⟨_, .commaMissing halved inside (Text.cutAt_eq_none_iff.mp comma)⟩
      | some parts =>
        rcases Text.cutAt_eq_some_iff.mp comma with ⟨rfl, first⟩
        exact read_or_malformed_of_parted ⟨left, halved, inside, first⟩
    · exact .inr ⟨_, .sourceShape halved fun inner inside => wrapped ⟨inner, inside⟩⟩
  · exact .inr ⟨_, .arrowCount fun left right halved => cut ⟨left, right, halved⟩⟩

/-- A line is not read exactly if it is malformed, and it is malformed in one
way only. -/
theorem readMove_eq_error_iff {line : List Char} {malformation : Malformation} :
    readMove false line = .error malformation ↔ Malformed line malformation := by
  constructor
  · intro fails
    rcases read_or_malformed line with ⟨move, read⟩ | ⟨found, malformed⟩
    · cases fails.symm.trans read
    · cases (readMove_of_malformed malformed).symm.trans fails
      exact malformed
  · exact readMove_of_malformed

end Specification
end FiniteAutomata
