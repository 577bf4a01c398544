import FiniteAutomata.Proofs.Text.Pieces
import FiniteAutomata.Proofs.Text.Trimmed
import FiniteAutomata.Specification.Line

namespace FiniteAutomata
namespace Specification

/-!
# The grammar of move lines

A line spells an edge if it is the source and the token between parentheses,
separated by the first comma, then an arrow and the target, where blanks may
stand around each of the three and in front of the arrow, and no other arrow
occurs.  `Edge.ofLine` reads exactly the lines that spell an edge.
-/

open Text (ArrowFree isBlank trimmed)

/-- A line is written as an edge. -/
structure Spells (line : List Char) (edge : Edge) : Prop where
  source_nonempty : edge.source ≠ ""
  token_nonempty : edge.token ≠ ""
  target_nonempty : edge.target ≠ ""
  written : ∃ before behind gap after : List Char,
    line = ('(' :: before ++ ',' :: behind ++ ')' :: gap) ++ '-' :: '>' :: after ∧
      ArrowFree ('(' :: before ++ ',' :: behind ++ ')' :: gap) ∧ ArrowFree after ∧
      ',' ∉ before ∧ (∀ c ∈ gap, isBlank c = true) ∧
      trimmed before = edge.source.toList ∧ trimmed behind = edge.token.toList ∧
      trimmed after = edge.target.toList

theorem Spells.opens {line : List Char} {edge : Edge} (spelled : Spells line edge) :
    ∃ rest, line = '(' :: rest := by
  rcases spelled.written with ⟨_, _, _, _, whole, _⟩
  exact ⟨_, whole⟩

/-! ## The parts of a line -/

theorem insideParentheses?_eq_some_iff {text inner : List Char} :
    insideParentheses? text = some inner ↔ text = '(' :: inner ++ [')'] := by
  unfold insideParentheses?
  split
  · rename_i rest
    constructor
    · intro found
      split at found
      · rename_i closes
        cases found
        rw [List.cons_append, List.dropLast_append_getLast? ')' closes]
      · cases found
    · intro whole
      rcases (List.cons.inj whole).2 with rfl
      simp
  · rename_i noOpening
    constructor
    · intro found
      cases found
    · rintro rfl
      exact absurd rfl (noOpening _)

theorem source_trimmed {inner gap : List Char} (blankGap : ∀ c ∈ gap, isBlank c = true) :
    trimmed ('(' :: inner ++ ')' :: gap) = '(' :: inner ++ [')'] := by
  calc trimmed ('(' :: inner ++ ')' :: gap)
      = trimmed ([] ++ ('(' :: inner ++ [')']) ++ gap) := by simp
    _ = trimmed ('(' :: inner ++ [')']) := Text.trimmed_append_append (by simp) blankGap
    _ = '(' :: inner ++ [')'] := Text.trimmed_between rfl rfl inner

/-- In front of its arrow a move line is the text in parentheses and blanks. -/
theorem exists_gap {left inner : List Char} (opens : ∃ rest, left = '(' :: rest)
    (inside : trimmed left = '(' :: inner ++ [')']) :
    ∃ gap, left = '(' :: inner ++ ')' :: gap ∧ ∀ c ∈ gap, isBlank c = true := by
  rcases Text.exists_trimmed left with ⟨before, gap, whole, blankBefore, blankGap⟩
  have clear : before = [] := by
    cases before with
    | nil => rfl
    | cons c others =>
      rcases opens with ⟨rest, starts⟩
      rw [starts] at whole
      rcases (List.cons.inj whole).1 with rfl
      exact absurd (blankBefore '(' List.mem_cons_self) (by decide)
  refine ⟨gap, ?_, blankGap⟩
  rw [clear, inside] at whole
  rw [whole]
  simp

/-! ## Reading a line -/

/-- A line that is read as an edge spells it. -/
theorem Edge.spells_of_ofLine {line : List Char} {edge : Edge} (opens : ∃ rest, line = '(' :: rest)
    (read : Edge.ofLine line = .ok edge) : Spells line edge := by
  unfold Edge.ofLine at read
  split at read
  · rename_i left right pieces
    rcases Text.splitArrows_eq_pair_iff.mp pieces with ⟨whole, freeLeft, freeRight⟩
    split at read
    · cases read
    · rename_i inner inside
      split at read
      · cases read
      · rename_i before behind cut
        rcases Text.cutAt_eq_some_iff.mp cut with ⟨parts, noComma⟩
        have leftOpens : ∃ rest, left = '(' :: rest := by
          rcases opens with ⟨rest, starts⟩
          rw [starts] at whole
          cases left with
          | nil => exact absurd (List.cons.inj whole).1 (by decide)
          | cons c others => exact ⟨others, by rw [(List.cons.inj whole).1]⟩
        rcases exists_gap leftOpens (insideParentheses?_eq_some_iff.mp inside) with
          ⟨gap, leftWhole, blankGap⟩
        have leftParts : left = '(' :: before ++ ',' :: behind ++ ')' :: gap := by
          rw [leftWhole, parts]
          simp
        simp only [String.isEmpty_iff] at read
        split at read
        · cases read
        · rename_i hasSource
          split at read
          · cases read
          · rename_i hasToken
            split at read
            · cases read
            · rename_i hasTarget
              cases read
              refine ⟨hasSource, hasToken, hasTarget, before, behind, gap, right, ?_, ?_, freeRight,
                noComma, blankGap, ?_, ?_, ?_⟩
              · rw [whole, leftParts]
              · rwa [← leftParts]
              · simp
              · simp
              · simp
  · cases read

/-- A line that spells an edge is read as it. -/
theorem Edge.ofLine_of_spells {line : List Char} {edge : Edge} (spelled : Spells line edge) :
    Edge.ofLine line = .ok edge := by
  rcases spelled with ⟨hasSource, hasToken, hasTarget, before, behind, gap, after, whole, freeLeft,
    freeAfter, noComma, blankGap, source, token, target⟩
  have pieces := Text.splitArrows_eq_pair_iff.mpr ⟨whole, freeLeft, freeAfter⟩
  have inner : '(' :: before ++ ',' :: behind ++ ')' :: gap =
      '(' :: (before ++ ',' :: behind) ++ ')' :: gap := by simp
  have inside : insideParentheses? (trimmed ('(' :: before ++ ',' :: behind ++ ')' :: gap)) =
      some (before ++ ',' :: behind) := by
    rw [insideParentheses?_eq_some_iff, inner, source_trimmed blankGap]
  have cut : Text.cutAt ',' (before ++ ',' :: behind) = some (before, behind) :=
    Text.cutAt_eq_some_iff.mpr ⟨rfl, noComma⟩
  unfold Edge.ofLine
  rw [pieces]
  simp only [inside, cut, source, token, target, String.ofList_toList, String.isEmpty_iff,
    if_neg hasSource, if_neg hasToken, if_neg hasTarget]

/-- The lines that are read as an edge are those that spell it. -/
theorem Edge.ofLine_eq_ok_iff {line : List Char} {edge : Edge}
    (opens : ∃ rest, line = '(' :: rest) : Edge.ofLine line = .ok edge ↔ Spells line edge :=
  ⟨Edge.spells_of_ofLine opens, Edge.ofLine_of_spells⟩

/-! ## The symbol of an edge -/

/-- The symbol of a token is its first character; a longer token has one only
with truncation. -/
theorem Edge.symbol_eq_ok_iff {edge : Edge} {truncate : Bool} {symbol : Char} :
    edge.symbol truncate = .ok symbol ↔
      ∃ more, edge.token.toList = symbol :: more ∧ (more = [] ∨ truncate = true) := by
  unfold Edge.symbol
  split
  · rename_i empty
    simp [empty]
  · rename_i single
    simp [single, eq_comm]
  · rename_i first more several shape
    have long : more ≠ [] := by
      rintro rfl
      exact several rfl
    cases truncate <;> simp [shape, long]

/-- A token of one character is its symbol, with and without truncation. -/
theorem Edge.symbol_of_singleton {edge : Edge} {symbol : Char}
    (single : edge.token = String.singleton symbol) (truncate : Bool) :
    edge.symbol truncate = .ok symbol :=
  Edge.symbol_eq_ok_iff.mpr ⟨[], by rw [single, String.toList_singleton], .inl rfl⟩

theorem Edge.head?_of_symbol {edge : Edge} {truncate : Bool} {symbol : Char}
    (used : edge.symbol truncate = .ok symbol) : edge.token.toList.head? = some symbol := by
  rcases Edge.symbol_eq_ok_iff.mp used with ⟨more, token, _⟩
  rw [token, List.head?_cons]

/-- Without truncation a symbol is the whole token. -/
theorem Edge.token_of_symbol {edge : Edge} {symbol : Char} (used : edge.symbol false = .ok symbol) :
    edge.token = String.singleton symbol := by
  rcases Edge.symbol_eq_ok_iff.mp used with ⟨more, token, rfl | cut⟩
  · rw [← String.toList_inj, token, String.toList_singleton]
  · cases cut

/-- The symbol of a spelled edge is no blank, also if its token was cut. -/
theorem Spells.symbol_solid {line : List Char} {edge : Edge} (spelled : Spells line edge)
    {truncate : Bool} {symbol : Char} (used : edge.symbol truncate = .ok symbol) :
    isBlank symbol = false := by
  rcases spelled.written with ⟨_, behind, _, _, _, _, _, _, _, _, token, _⟩
  have first := Edge.head?_of_symbol used
  rw [← token] at first
  exact Text.isBlank_of_head?_trimmed first

/-! ## Moves by name -/

/-- The move that a line describes, by name: source, symbol and target. -/
def readMove (truncate : Bool) (line : List Char) : Except Malformation (String × Char × String) :=
  match Edge.ofLine line with
  | .error malformation => .error malformation
  | .ok edge =>
    match edge.symbol truncate with
    | .error malformation => .error malformation
    | .ok symbol => .ok (edge.source, symbol, edge.target)

theorem readMove_eq_ok_iff {truncate : Bool} {line : List Char} {move : String × Char × String} :
    readMove truncate line = .ok move ↔ ∃ edge, Edge.ofLine line = .ok edge ∧
      edge.symbol truncate = .ok move.2.1 ∧ edge.source = move.1 ∧ edge.target = move.2.2 := by
  unfold readMove
  constructor
  · intro read
    split at read
    · cases read
    · rename_i edge found
      split at read
      · cases read
      · rename_i symbol used
        cases read
        exact ⟨edge, found, used, rfl, rfl⟩
  · rintro ⟨edge, found, used, source, target⟩
    simp only [found, used, source, target]

/-- A line denotes a move if it spells the edge whose token is the symbol. -/
def Denotes (line : List Char) (move : String × Char × String) : Prop :=
  Spells line ⟨move.1, String.singleton move.2.1, move.2.2⟩

/-- A move that a line denotes is read from it, with and without truncation. -/
theorem readMove_of_denotes {line : List Char} {move : String × Char × String}
    (denoted : Denotes line move) (truncate : Bool) : readMove truncate line = .ok move :=
  readMove_eq_ok_iff.mpr
    ⟨_, Edge.ofLine_of_spells denoted, Edge.symbol_of_singleton rfl truncate, rfl, rfl⟩

/-- Without truncation, the move read from a line is the one it denotes. -/
theorem readMove_eq_ok_iff_denotes {line : List Char} {move : String × Char × String}
    (opens : ∃ rest, line = '(' :: rest) : readMove false line = .ok move ↔ Denotes line move := by
  rw [readMove_eq_ok_iff]
  constructor
  · rintro ⟨edge, found, used, source, target⟩
    have spelled := Edge.spells_of_ofLine opens found
    rw [Denotes, ← Edge.token_of_symbol used, ← source, ← target]
    exact spelled
  · intro denoted
    exact readMove_eq_ok_iff.mp (readMove_of_denotes denoted false)

end Specification
end FiniteAutomata
