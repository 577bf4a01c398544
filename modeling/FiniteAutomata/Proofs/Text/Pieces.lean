import FiniteAutomata.Text.Split
import Mathlib.Data.List.Infix

namespace FiniteAutomata
namespace Text

/-!
# Pieces of a text

Cutting and putting together undo each other.  A text is cut at a character
like any list.  An arrow is two characters wide, so the pieces between arrows
need one more remark: an arrow ends in a character that cannot begin another,
hence a piece without an arrow stays whole in front of one, also if it ends in
a hyphen.
-/

/-! ## Cutting at a character -/

theorem consPiece_eq_modifyHead {pieces : List (List Char)} (present : pieces ≠ []) (c : Char) :
    consPiece c pieces = pieces.modifyHead (List.cons c) := by
  cases pieces with
  | nil => exact absurd rfl present
  | cons piece rest => rfl

/-- Texts are cut at a character like any list. -/
theorem splitAt_eq_splitOn (mark : Char) (text : List Char) :
    splitAt mark text = text.splitOn mark := by
  induction text with
  | nil => rfl
  | cons c rest inductionHypothesis =>
    rw [splitAt, List.splitOn_cons_eq_if_modifyHead, inductionHypothesis,
      consPiece_eq_modifyHead (List.splitOn_ne_nil mark rest)]
    simp only [beq_iff_eq]

theorem mem_of_mem_splitAt {mark : Char} {text piece : List Char} {c : Char}
    (among : piece ∈ splitAt mark text) (member : c ∈ piece) : c ∈ text := by
  have whole : [mark].intercalate (splitAt mark text) = text := by
    rw [splitAt_eq_splitOn, List.intercalate_splitOn]
  rw [← whole]
  generalize splitAt mark text = pieces at among
  induction pieces with
  | nil => cases among
  | cons first rest inductionHypothesis =>
    cases rest with
    | nil =>
      rw [List.mem_singleton.mp among] at member
      rwa [List.intercalate_singleton]
    | cons second others =>
      rw [List.intercalate_cons_cons]
      rcases List.mem_cons.mp among with same | later
      · rw [← same]
        exact List.mem_append_left _ (List.mem_append_left _ member)
      · exact List.mem_append_right _ (inductionHypothesis later)

theorem splitAt_of_not_mem {mark : Char} {text : List Char} (clear : mark ∉ text) :
    splitAt mark text = [text] := by
  rw [splitAt_eq_splitOn, List.splitOn_eq_singleton clear]

/-- A piece without the mark is cut off at the mark behind it. -/
theorem splitAt_append {mark : Char} {text : List Char} (clear : mark ∉ text) (rest : List Char) :
    splitAt mark (text ++ mark :: rest) = text :: splitAt mark rest := by
  rw [splitAt_eq_splitOn, splitAt_eq_splitOn, List.splitOn_append_cons_self_of_not_mem clear]

theorem cutAt_eq_none_iff {mark : Char} {text : List Char} :
    cutAt mark text = none ↔ mark ∉ text := by
  induction text with
  | nil => simp [cutAt]
  | cons c rest inductionHypothesis =>
    by_cases same : c = mark
    · simp [cutAt, same]
    · simp [cutAt, same, inductionHypothesis, Ne.symm same]

theorem cutAt_eq_some_iff {mark : Char} {text before after : List Char} :
    cutAt mark text = some (before, after) ↔ text = before ++ mark :: after ∧ mark ∉ before := by
  induction text generalizing before with
  | nil => simp [cutAt]
  | cons c rest inductionHypothesis =>
    by_cases same : c = mark
    · subst same
      cases before with
      | nil => simp [cutAt]
      | cons first others =>
        simp only [cutAt, if_true, Option.some.injEq, Prod.mk.injEq, List.cons_append,
          List.cons.injEq]
        constructor
        · rintro ⟨impossible, _⟩
          cases impossible
        · rintro ⟨⟨rfl, _⟩, absent⟩
          exact absurd List.mem_cons_self absent
    · rw [cutAt, if_neg same, Option.map_eq_some_iff]
      constructor
      · rintro ⟨⟨front, back⟩, cut, parts⟩
        cases parts
        rcases inductionHypothesis.mp cut with ⟨whole, absent⟩
        exact ⟨by rw [whole]; rfl, by simp [Ne.symm same, absent]⟩
      · rintro ⟨whole, absent⟩
        cases before with
        | nil => exact absurd (List.cons.inj whole).1 same
        | cons first others =>
          rcases List.cons.inj whole with ⟨rfl, rest⟩
          have clear : mark ∉ others := fun member => absent (List.mem_cons_of_mem _ member)
          exact ⟨(others, after), inductionHypothesis.mpr ⟨rest, clear⟩, rfl⟩

/-! ## Putting together -/

/-- Pieces put together are the first and then the others, each with the text
between in front of it. -/
theorem toList_joined_cons (between first : String) (others : List String) :
    (joined between (first :: others)).toList =
      first.toList ++ others.flatMap fun piece => between.toList ++ piece.toList := by
  induction others generalizing first with
  | nil => simp [joined]
  | cons second rest inductionHypothesis =>
    have parts : joined between (first :: second :: rest) =
        first ++ between ++ joined between (second :: rest) := String.intercalate_cons_cons
    rw [parts, String.toList_append, String.toList_append, inductionHypothesis, List.flatMap_cons]
    simp

theorem mem_of_mem_joined {between : String} {pieces : List String} {c : Char}
    (member : c ∈ (joined between pieces).toList) :
    c ∈ between.toList ∨ ∃ piece ∈ pieces, c ∈ piece.toList := by
  cases pieces with
  | nil => simp [joined] at member
  | cons first others =>
    rw [toList_joined_cons, List.mem_append, List.mem_flatMap] at member
    rcases member with inside | ⟨piece, among, inside⟩
    · exact Or.inr ⟨first, List.mem_cons_self, inside⟩
    · rcases List.mem_append.mp inside with front | back
      · exact Or.inl front
      · exact Or.inr ⟨piece, List.mem_cons_of_mem _ among, back⟩

/-- Lines put together with line feeds, and one more at the end, are lines
with a line feed each. -/
theorem toList_joined_feed (first : String) (others : List String) :
    (joined "\n" (first :: others) ++ "\n").toList =
      (first :: others).flatMap fun line => line.toList ++ ['\n'] := by
  rw [String.toList_append, toList_joined_cons]
  induction others generalizing first with
  | nil => simp
  | cons second rest inductionHypothesis =>
    have whole := inductionHypothesis second
    have feed : "\n".toList = ['\n'] := rfl
    rw [List.flatMap_cons, List.flatMap_cons, ← whole]
    simp only [feed, List.append_assoc, List.cons_append]

/-- A mark is told from what is in front of it if that has no such mark. -/
theorem append_mark_inj {mark : Char} {first second before after : List Char}
    (clearFirst : mark ∉ first) (clearSecond : mark ∉ second)
    (same : first ++ mark :: before = second ++ mark :: after) :
    first = second ∧ before = after := by
  have cutFirst : cutAt mark (first ++ mark :: before) = some (first, before) :=
    cutAt_eq_some_iff.mpr ⟨rfl, clearFirst⟩
  have cutSecond : cutAt mark (first ++ mark :: before) = some (second, after) :=
    cutAt_eq_some_iff.mpr ⟨same, clearSecond⟩
  exact Prod.mk.inj (Option.some.inj (cutFirst.symm.trans cutSecond))

/-- Pieces put together are cut apart at the mark that begins the text between
them, which leaves the rest of that text in front of all but the first. -/
theorem splitAt_joined {between : String} {mark : Char} {lead : List Char}
    (begins : between.toList = mark :: lead) (clearLead : mark ∉ lead) {first : String}
    (clearFirst : mark ∉ first.toList) {others : List String}
    (clearOthers : ∀ piece ∈ others, mark ∉ piece.toList) :
    splitAt mark (joined between (first :: others)).toList =
      first.toList :: others.map fun piece => lead ++ piece.toList := by
  rw [toList_joined_cons, begins]
  generalize first.toList = front at clearFirst
  induction others generalizing front with
  | nil => rw [List.flatMap_nil, List.append_nil, splitAt_of_not_mem clearFirst, List.map_nil]
  | cons piece rest inductionHypothesis =>
    rcases List.forall_mem_cons.mp clearOthers with ⟨clearPiece, clearRest⟩
    have clearBoth : mark ∉ lead ++ piece.toList := by
      rw [List.mem_append, not_or]
      exact ⟨clearLead, clearPiece⟩
    have later := inductionHypothesis clearRest (lead ++ piece.toList) clearBoth
    rw [List.flatMap_cons, List.append_assoc, List.cons_append, splitAt_append clearFirst,
      ← List.append_assoc, later, List.map_cons]

/-- Pieces are told from each other if the text between them begins with a mark
that is nowhere else.  No piece may be empty, or one empty piece would look
like none. -/
theorem joined_inj {between : String} {mark : Char} {lead : List Char}
    (begins : between.toList = mark :: lead) (clearLead : mark ∉ lead) {first second : List String}
    (clearFirst : ∀ piece ∈ first, piece ≠ "" ∧ mark ∉ piece.toList)
    (clearSecond : ∀ piece ∈ second, piece ≠ "" ∧ mark ∉ piece.toList)
    (same : joined between first = joined between second) : first = second := by
  have present : ∀ {piece : String} {others : List String}, piece ≠ "" →
      joined between (piece :: others) ≠ joined between [] := by
    intro piece others filled empty
    have nothing := congrArg String.toList empty
    rw [toList_joined_cons] at nothing
    exact filled (by simpa using (List.append_eq_nil_iff.mp nothing).1)
  cases first with
  | nil =>
    cases second with
    | nil => rfl
    | cons other others => exact absurd same.symm (present (clearSecond other List.mem_cons_self).1)
  | cons piece rest =>
    cases second with
    | nil => exact absurd same (present (clearFirst piece List.mem_cons_self).1)
    | cons other others =>
      rcases List.forall_mem_cons.mp clearFirst with ⟨⟨_, clearPiece⟩, clearRest⟩
      rcases List.forall_mem_cons.mp clearSecond with ⟨⟨_, clearOther⟩, clearOthers⟩
      have cut : splitAt mark (joined between (piece :: rest)).toList =
          splitAt mark (joined between (other :: others)).toList := by
        rw [same]
      rw [splitAt_joined begins clearLead clearPiece fun next among => (clearRest next among).2,
        splitAt_joined begins clearLead clearOther fun next among => (clearOthers next among).2]
        at cut
      rcases List.cons.inj cut with ⟨here, behind⟩
      have apart : Function.Injective fun piece : String => lead ++ piece.toList :=
        fun _ _ same => String.toList_inj.mp (List.append_cancel_left same)
      rw [String.toList_inj.mp here, List.map_injective_iff.mpr apart behind]

/-! ## Occurrence -/

theorem contains_iff {part text : List Char} : contains part text = true ↔ part <:+: text := by
  induction text with
  | nil => simp [contains, List.isEmpty_iff]
  | cons c rest inductionHypothesis =>
    rw [contains, Bool.or_eq_true, List.isPrefixOf_iff_prefix, inductionHypothesis,
      List.infix_cons_iff]

theorem after?_eq_some_iff {lead text rest : List Char} :
    after? lead text = some rest ↔ text = lead ++ rest := by
  unfold after?
  constructor
  · intro found
    split at found
    · rename_i leads
      cases found
      exact (List.prefix_iff_eq_append.mp (List.isPrefixOf_iff_prefix.mp leads)).symm
    · cases found
  · rintro rfl
    rw [if_pos (List.isPrefixOf_iff_prefix.mpr (List.prefix_append lead rest)), List.drop_left]

/-! ## Cutting at arrows -/

/-- The arrow. -/
def arrow : List Char := ['-', '>']

/-- No arrow occurs in a text. -/
def ArrowFree (text : List Char) : Prop :=
  ¬ arrow <:+: text

theorem splitArrows_ne_nil (text : List Char) : splitArrows text ≠ [] := by
  fun_induction splitArrows text with
  | case1 => exact List.cons_ne_nil _ _
  | case2 rest _ => exact List.cons_ne_nil _ _
  | case3 c rest _ inductionHypothesis =>
    rw [consPiece_eq_modifyHead inductionHypothesis]
    simpa using inductionHypothesis

/-- The pieces between arrows, put together with arrows, give the text. -/
theorem intercalate_splitArrows (text : List Char) :
    arrow.intercalate (splitArrows text) = text := by
  fun_induction splitArrows text with
  | case1 => rfl
  | case2 rest inductionHypothesis =>
    rw [List.intercalate_cons_of_ne_nil (splitArrows_ne_nil rest), inductionHypothesis]
    rfl
  | case3 c rest _ inductionHypothesis =>
    have present := splitArrows_ne_nil rest
    generalize splitArrows rest = pieces at present inductionHypothesis
    cases pieces with
    | nil => exact absurd rfl present
    | cons piece others =>
      rw [consPiece, List.intercalate_cons_cons_left, inductionHypothesis]

theorem arrow_prefix_cons_iff {c : Char} {text : List Char} :
    arrow <+: c :: text ↔ c = '-' ∧ ∃ rest, text = '>' :: rest := by
  constructor
  · rintro ⟨rest, whole⟩
    rcases List.cons.inj whole with ⟨rfl, tail⟩
    exact ⟨rfl, rest, tail.symm⟩
  · rintro ⟨rfl, rest, rfl⟩
    exact ⟨rest, rfl⟩

theorem arrowFree_cons_iff {c : Char} {text : List Char} :
    ArrowFree (c :: text) ↔ (∀ rest, c = '-' → text ≠ '>' :: rest) ∧ ArrowFree text := by
  rw [ArrowFree, List.infix_cons_iff, not_or, arrow_prefix_cons_iff]
  constructor
  · rintro ⟨noStart, later⟩
    exact ⟨fun rest hyphen follows => noStart ⟨hyphen, rest, follows⟩, later⟩
  · rintro ⟨noStart, later⟩
    exact ⟨fun ⟨hyphen, rest, follows⟩ => noStart rest hyphen follows, later⟩

/-- No arrow arises in front of a text that does not begin with its point. -/
theorem arrowFree_append {front : List Char} (freeFront : ArrowFree front) {c : Char}
    (noPoint : c ≠ '>') {rest : List Char} (freeRest : ArrowFree (c :: rest)) :
    ArrowFree (front ++ c :: rest) := by
  induction front with
  | nil => exact freeRest
  | cons d tail inductionHypothesis =>
    rcases arrowFree_cons_iff.mp freeFront with ⟨noStart, later⟩
    rw [List.cons_append, arrowFree_cons_iff]
    refine ⟨?_, inductionHypothesis later⟩
    intro others hyphen follows
    cases tail with
    | nil => exact noPoint (List.cons.inj follows).1
    | cons e remaining =>
      rcases (List.cons.inj follows).1 with rfl
      exact noStart remaining hyphen rfl

theorem arrowFree_nil : ArrowFree [] := by
  simp [ArrowFree, arrow]

/-- No arrow is left in a piece.  A character goes in front of a piece only if
no arrow begins at it. -/
theorem arrowFree_of_mem_splitArrows {text piece : List Char} (among : piece ∈ splitArrows text) :
    ArrowFree piece := by
  fun_induction splitArrows text generalizing piece with
  | case1 =>
    rw [List.mem_singleton.mp among]
    exact arrowFree_nil
  | case2 rest inductionHypothesis =>
    rcases List.mem_cons.mp among with same | later
    · rw [same]
      exact arrowFree_nil
    · exact inductionHypothesis later
  | case3 c rest noArrow inductionHypothesis =>
    have whole := intercalate_splitArrows rest
    have present := splitArrows_ne_nil rest
    generalize splitArrows rest = pieces at present inductionHypothesis whole among
    cases pieces with
    | nil => exact absurd rfl present
    | cons first others =>
      rcases List.mem_cons.mp among with same | later
      · rw [same, arrowFree_cons_iff]
        refine ⟨?_, inductionHypothesis List.mem_cons_self⟩
        rintro tail hyphen rfl
        cases others with
        | nil => exact noArrow tail hyphen (by rw [← whole, List.intercalate_singleton])
        | cons second remaining =>
          rw [List.intercalate_cons_cons] at whole
          exact noArrow _ hyphen whole.symm
      · exact inductionHypothesis (List.mem_cons_of_mem _ later)

theorem splitArrows_cons {c : Char} {text : List Char}
    (noArrow : ∀ rest, c = '-' → text ≠ '>' :: rest) :
    splitArrows (c :: text) = consPiece c (splitArrows text) := by
  rw [splitArrows]
  exact fun rest hyphen follows => noArrow rest hyphen follows

/-- A piece without an arrow is cut off at the arrow behind it. -/
theorem splitArrows_append {text : List Char} (free : ArrowFree text) (rest : List Char) :
    splitArrows (text ++ '-' :: '>' :: rest) = text :: splitArrows rest := by
  induction text with
  | nil => rw [List.nil_append, splitArrows]
  | cons c tail inductionHypothesis =>
    rcases arrowFree_cons_iff.mp free with ⟨noStart, later⟩
    have noArrow : ∀ others, c = '-' → tail ++ '-' :: '>' :: rest ≠ '>' :: others := by
      intro others hyphen follows
      cases tail with
      | nil => cases follows
      | cons first remaining =>
        rcases List.cons.inj follows with ⟨rfl, _⟩
        exact noStart remaining hyphen rfl
    rw [List.cons_append, splitArrows_cons noArrow, inductionHypothesis later]
    rfl

theorem splitArrows_of_arrowFree {text : List Char} (free : ArrowFree text) :
    splitArrows text = [text] := by
  induction text with
  | nil => rfl
  | cons c tail inductionHypothesis =>
    rcases arrowFree_cons_iff.mp free with ⟨noStart, later⟩
    rw [splitArrows_cons noStart, inductionHypothesis later]
    rfl

/-- A text has exactly one arrow if it is two texts without any around one. -/
theorem splitArrows_eq_pair_iff {text left right : List Char} :
    splitArrows text = [left, right] ↔
      text = left ++ '-' :: '>' :: right ∧ ArrowFree left ∧ ArrowFree right := by
  constructor
  · intro pieces
    have whole := intercalate_splitArrows text
    have free : ∀ piece ∈ splitArrows text, ArrowFree piece := fun piece among =>
      arrowFree_of_mem_splitArrows among
    rw [pieces] at free
    rw [pieces, List.intercalate_cons_cons, List.intercalate_singleton] at whole
    refine ⟨?_, ?_, ?_⟩
    · rw [← whole, List.append_assoc]
      rfl
    · exact free left List.mem_cons_self
    · exact free right (by simp)
  · rintro ⟨rfl, freeLeft, freeRight⟩
    rw [splitArrows_append freeLeft, splitArrows_of_arrowFree freeRight]

/-! ## Counting arrows -/

/-- How many arrows a text has, found from left to right without overlap. -/
def arrows : List Char → Nat
  | [] => 0
  | '-' :: '>' :: rest => arrows rest + 1
  | _ :: rest => arrows rest

theorem arrows_cons {c : Char} {text : List Char}
    (noArrow : ∀ rest, c = '-' → text ≠ '>' :: rest) : arrows (c :: text) = arrows text := by
  rw [arrows]
  exact fun rest hyphen follows => noArrow rest hyphen follows

theorem arrows_eq_zero_iff {text : List Char} : arrows text = 0 ↔ ArrowFree text := by
  fun_induction arrows text with
  | case1 => simp [arrowFree_nil]
  | case2 rest _ => simp [arrowFree_cons_iff]
  | case3 c rest noArrow inductionHypothesis =>
    rw [inductionHypothesis, arrowFree_cons_iff]
    exact ⟨fun free => ⟨fun others hyphen follows => noArrow others hyphen follows, free⟩,
      fun free => free.2⟩

/-- No arrow is lost or found where a text is cut at one. -/
theorem arrows_append_arrow (left right : List Char) :
    arrows (left ++ '-' :: '>' :: right) = arrows left + arrows right + 1 := by
  fun_induction arrows left with
  | case1 => rw [List.nil_append, arrows, Nat.zero_add]
  | case2 rest inductionHypothesis =>
    rw [List.cons_append, List.cons_append, arrows, inductionHypothesis]
    omega
  | case3 c rest noArrow inductionHypothesis =>
    rw [List.cons_append, arrows_cons, inductionHypothesis]
    intro others hyphen follows
    cases rest with
    | nil => exact absurd (List.cons.inj follows).1 (by decide)
    | cons first remaining =>
      rcases List.cons.inj follows with ⟨rfl, _⟩
      exact noArrow remaining hyphen rfl

/-- A text is cut at its only arrow exactly where it has no arrow on either
side. -/
theorem arrows_eq_one_iff {left right : List Char} :
    arrows (left ++ '-' :: '>' :: right) = 1 ↔ ArrowFree left ∧ ArrowFree right := by
  rw [arrows_append_arrow, ← arrows_eq_zero_iff, ← arrows_eq_zero_iff]
  omega

end Text
end FiniteAutomata
