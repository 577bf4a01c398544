import FiniteAutomata.Text.Lines
import Mathlib.Data.List.Infix

namespace FiniteAutomata
namespace Text

/-!
# Lines of a text

No line holds a line break, a text without line breaks is the line in front of
one, and what is behind a line feed is cut into lines by itself.
-/

/-- A text of one line. -/
def Unbroken (text : List Char) : Prop :=
  ∀ c ∈ text, isLineBreak c = false

instance : DecidablePred Unbroken := fun text =>
  List.decidableBAll (fun c => isLineBreak c = false) text

theorem unbroken_append {first second : List Char} (unbrokenFirst : Unbroken first)
    (unbrokenSecond : Unbroken second) : Unbroken (first ++ second) := by
  intro c member
  rcases List.mem_append.mp member with inside | inside
  · exact unbrokenFirst c inside
  · exact unbrokenSecond c inside

theorem unbroken_append_iff {first second : List Char} :
    Unbroken (first ++ second) ↔ Unbroken first ∧ Unbroken second :=
  List.forall_mem_append

theorem unbroken_toList_append {first second : String} (unbrokenFirst : Unbroken first.toList)
    (unbrokenSecond : Unbroken second.toList) : Unbroken (first ++ second).toList := by
  rw [String.toList_append]
  exact unbroken_append unbrokenFirst unbrokenSecond

/-- A text between two others stands on one line with them. -/
theorem unbroken_around {before text after : String} (front : Unbroken before.toList)
    (inside : Unbroken text.toList) (back : Unbroken after.toList) :
    Unbroken (before ++ text ++ after).toList :=
  unbroken_toList_append (unbroken_toList_append front inside) back

theorem unbroken_cons_iff {c : Char} {text : List Char} :
    Unbroken (c :: text) ↔ isLineBreak c = false ∧ Unbroken text :=
  List.forall_mem_cons

/-! ## Reading one character -/

/-- A character that does not begin a line break of two is a line break or
belongs to its line. -/
theorem lines_cons {c : Char} {rest : List Char} (single : ¬ (c = '\r' ∧ rest.head? = some '\n')) :
    lines (c :: rest) = if isLineBreak c then [] :: lines rest else consLine c (lines rest) := by
  rw [lines]
  rintro others rfl rfl
  exact single ⟨rfl, rfl⟩

theorem lines_cons_of_solid {c : Char} (solid : isLineBreak c = false) (rest : List Char) :
    lines (c :: rest) = consLine c (lines rest) := by
  have single : ¬ (c = '\r' ∧ rest.head? = some '\n') := by
    rintro ⟨rfl, _⟩
    exact absurd solid (by decide)
  rw [lines_cons single, if_neg (by simp [solid])]

theorem lines_feed (rest : List Char) : lines ('\n' :: rest) = [] :: lines rest := by
  rw [lines_cons fun both => absurd both.1 (by decide), if_pos (by decide)]

/-- A line break ends a line, unless it is the first half of one. -/
theorem lines_cons_of_isLineBreak {c : Char} {rest : List Char} (lineBreak : isLineBreak c = true)
    (notFeed : rest.head? ≠ some '\n') : lines (c :: rest) = [] :: lines rest := by
  rw [lines_cons fun both => notFeed both.2, if_pos lineBreak]

theorem consLine_append {c : Char} {front : List (List Char)} (present : front ≠ [])
    (back : List (List Char)) : consLine c (front ++ back) = consLine c front ++ back := by
  cases front with
  | nil => exact absurd rfl present
  | cons line others => rfl

theorem lines_ne_nil {text : List Char} (present : text ≠ []) : lines text ≠ [] := by
  fun_cases lines text with
  | case1 => exact absurd rfl present
  | case2 rest => simp
  | case3 c rest _ lineBreak => simp
  | case4 c rest _ notBreak => cases lines rest <;> simp [consLine]

/-- A text without line breaks belongs to the first line behind it. -/
theorem lines_append {front rest first : List Char} {more : List (List Char)}
    (unbroken : Unbroken front) (behind : lines rest = first :: more) :
    lines (front ++ rest) = (front ++ first) :: more := by
  induction front with
  | nil => exact behind
  | cons c tail inductionHypothesis =>
    have later : Unbroken tail := fun d member => unbroken d (List.mem_cons_of_mem _ member)
    rw [List.cons_append, lines_cons_of_solid (unbroken c List.mem_cons_self),
      inductionHypothesis later]
    rfl

/-! ## Lines hold no breaks -/

theorem unbroken_of_mem_lines {text line : List Char} (among : line ∈ lines text) :
    Unbroken line := by
  fun_induction lines text generalizing line with
  | case1 => cases among
  | case2 rest inductionHypothesis =>
    rcases List.mem_cons.mp among with same | later
    · rw [same]
      exact fun _ member => by cases member
    · exact inductionHypothesis later
  | case3 c rest _ lineBreak inductionHypothesis =>
    rcases List.mem_cons.mp among with same | later
    · rw [same]
      exact fun _ member => by cases member
    · exact inductionHypothesis later
  | case4 c rest _ notBreak inductionHypothesis =>
    have solid : isLineBreak c = false := by simpa using notBreak
    generalize lines rest = later at among inductionHypothesis
    cases later with
    | nil =>
      rw [consLine, List.mem_singleton] at among
      intro d member
      rw [among, List.mem_singleton] at member
      rwa [member]
    | cons first others =>
      rw [consLine] at among
      rcases List.mem_cons.mp among with same | further
      · intro d member
        rw [same] at member
        rcases List.mem_cons.mp member with here | inside
        · rwa [here]
        · exact inductionHypothesis List.mem_cons_self d inside
      · exact inductionHypothesis (List.mem_cons_of_mem _ further)

/-! ## Lines ended by line breaks -/

/-- A text without line breaks is the line in front of a line break. -/
theorem lines_append_break {c : Char} {line rest : List Char} (unbroken : Unbroken line)
    (ends : lines (c :: rest) = [] :: lines rest) :
    lines (line ++ c :: rest) = line :: lines rest := by
  induction line with
  | nil => exact ends
  | cons d tail inductionHypothesis =>
    have later : Unbroken tail := fun e member => unbroken e (List.mem_cons_of_mem _ member)
    rw [List.cons_append, lines_cons_of_solid (unbroken d List.mem_cons_self),
      inductionHypothesis later]
    rfl

/-- Whatever is in front of a line feed, the lines behind it are read by
themselves. -/
theorem lines_append_feed (front rest : List Char) :
    lines (front ++ '\n' :: rest) = lines (front ++ ['\n']) ++ lines rest := by
  induction front with
  | nil => rw [List.nil_append, List.nil_append, lines_feed, lines_feed]; rfl
  | cons c tail inductionHypothesis =>
    have sameHead : (tail ++ '\n' :: rest).head? = (tail ++ ['\n']).head? := by
      rw [List.head?_append, List.head?_append]
      rfl
    rw [List.cons_append, List.cons_append]
    by_cases joins : c = '\r' ∧ (tail ++ ['\n']).head? = some '\n'
    · rcases joins with ⟨rfl, feeds⟩
      cases tail with
      | nil => rfl
      | cons d others =>
        rcases Option.some.inj feeds with rfl
        rw [List.cons_append, List.cons_append, lines_feed, lines_feed] at inductionHypothesis
        rw [List.cons_append, List.cons_append, lines, lines]
        exact inductionHypothesis
    · rw [lines_cons joins, lines_cons (sameHead ▸ joins), inductionHypothesis]
      split
      · rfl
      · exact consLine_append (lines_ne_nil (by simp)) _

/-! ## Lines ended by line feeds -/

theorem feedLines_append_feed {line : List Char} (solid : '\n' ∉ line) (rest : List Char) :
    feedLines (line ++ '\n' :: rest) = line :: feedLines rest := by
  induction line with
  | nil => rfl
  | cons c tail inductionHypothesis =>
    have different := List.ne_of_not_mem_cons solid
    have later := List.not_mem_of_not_mem_cons solid
    rw [List.cons_append, feedLines, if_neg (Ne.symm different), inductionHypothesis later]
    rfl

section Terminated

variable {pieces : List (List Char)} (solid : ∀ piece ∈ pieces, '\n' ∉ piece)
include solid

/-- Pieces that are each ended by a line feed are cut at just these. -/
theorem feedLines_terminated : feedLines (pieces.flatMap fun piece => piece ++ ['\n']) = pieces := by
  induction pieces with
  | nil => rfl
  | cons piece rest inductionHypothesis =>
    rcases List.forall_mem_cons.mp solid with ⟨first, later⟩
    rw [List.flatMap_cons, List.append_assoc, List.singleton_append, feedLines_append_feed first,
      inductionHypothesis later]

theorem count_feed_terminated :
    (pieces.flatMap fun piece => piece ++ ['\n']).count '\n' = pieces.length := by
  induction pieces with
  | nil => rfl
  | cons piece rest inductionHypothesis =>
    rcases List.forall_mem_cons.mp solid with ⟨first, later⟩
    rw [List.flatMap_cons, List.count_append, List.count_append, List.count_eq_zero.mpr first,
      inductionHypothesis later, List.length_cons]
    exact Nat.add_comm 1 rest.length

end Terminated

/-! ## Carriage returns as line feeds -/

/-- A text has the same lines with every carriage return written as a line
feed. -/
theorem lines_normalizeBreaks (text : List Char) : lines (normalizeBreaks text) = lines text := by
  fun_induction normalizeBreaks text with
  | case1 => rfl
  | case2 rest inductionHypothesis => rw [lines_feed, inductionHypothesis, lines]
  | case3 c rest single inductionHypothesis =>
    have alone : ¬ (c = '\r' ∧ rest.head? = some '\n') := by
      rintro ⟨rfl, feeds⟩
      rcases List.head?_eq_some_iff.mp feeds with ⟨others, rfl⟩
      exact single others rfl rfl
    rw [lines_cons alone, ← inductionHypothesis]
    by_cases returns : c = '\r'
    · rw [if_pos returns, lines_feed, returns, if_pos (by decide)]
    · rw [if_neg returns, lines_cons fun both => returns both.1]

/-! ## Changing every line -/

/-- A text with every line changed, where the first line has begun already
with what was passed of it. -/
def eachLineFrom (change : List Char → List Char) (begun : List Char) : List Char → List Char
  | [] => change begun
  | '\r' :: '\n' :: rest => change begun ++ '\r' :: '\n' :: eachLineFrom change [] rest
  | c :: rest =>
    if isLineBreak c then change begun ++ c :: eachLineFrom change [] rest
    else eachLineFrom change (begun ++ [c]) rest

/-- A text with every line changed and all line breaks kept. -/
def eachLine (change : List Char → List Char) (text : List Char) : List Char :=
  eachLineFrom change [] text

/-- A change makes a line of a line: it brings in no breaks, and the empty text
is the change of itself alone. -/
structure KeepsLines (change : List Char → List Char) : Prop where
  unbroken : ∀ line, Unbroken line → Unbroken (change line)
  empty : ∀ line, change line = [] ↔ line = []

theorem head?_ne_feed {line : List Char} (unbroken : Unbroken line) : line.head? ≠ some '\n' := by
  intro feeds
  exact absurd (unbroken '\n' (List.mem_of_head? feeds)) (by decide)

variable {change : List Char → List Char} {begun : List Char}

/-- A changed line brings no line feed to the front; where it is empty, what is
behind it comes to the front. -/
theorem head?_change_append (keeps : KeepsLines change) (unbroken : Unbroken begun)
    {rest : List Char} (behind : begun = [] → rest.head? ≠ some '\n') :
    (change begun ++ rest).head? ≠ some '\n' := by
  by_cases nothing : begun = []
  · rw [(keeps.empty begun).mpr nothing]
    exact behind nothing
  · rw [List.head?_append_of_ne_nil _ (mt (keeps.empty begun).mp nothing)]
    exact head?_ne_feed (keeps.unbroken begun unbroken)

theorem head?_eachLineFrom (keeps : KeepsLines change) (unbroken : Unbroken begun)
    {text : List Char} (noFeed : (begun ++ text).head? ≠ some '\n') :
    (eachLineFrom change begun text).head? ≠ some '\n' := by
  fun_induction eachLineFrom change begun text with
  | case1 begun => exact head?_ne_feed (keeps.unbroken begun unbroken)
  | case2 begun rest _ => exact head?_change_append keeps unbroken fun _ => by simp
  | case3 begun c rest _ lineBreak _ =>
    apply head?_change_append keeps unbroken
    rintro rfl
    exact noFeed
  | case4 begun c rest _ solid inductionHypothesis =>
    apply inductionHypothesis
    · exact unbroken_append unbroken (by simpa [Unbroken] using solid)
    · simpa using noFeed

theorem lines_change (keeps : KeepsLines change) (unbroken : Unbroken begun) :
    lines (change begun) = (lines begun).map change := by
  have alone : ∀ line, Unbroken line → line ≠ [] → lines line = [line] := by
    intro line whole present
    rcases List.eq_nil_or_concat line with rfl | ⟨front, last, rfl⟩
    · exact absurd rfl present
    · rw [List.concat_eq_append] at whole ⊢
      rcases unbroken_append_iff.mp whole with ⟨solidFront, solidLast⟩
      have single : lines [last] = [[last]] := lines_cons_of_solid (solidLast last (by simp)) []
      exact lines_append solidFront single
  by_cases nothing : begun = []
  · rw [(keeps.empty begun).mpr nothing, nothing]
    rfl
  · rw [alone begun unbroken nothing, List.map_singleton]
    exact alone _ (keeps.unbroken begun unbroken) (mt (keeps.empty begun).mp nothing)

theorem lines_eachLineFrom (keeps : KeepsLines change) (unbroken : Unbroken begun)
    (text : List Char) :
    lines (eachLineFrom change begun text) = (lines (begun ++ text)).map change := by
  have fresh : Unbroken [] := fun _ member => by cases member
  have changed := fun line => keeps.unbroken line
  fun_induction eachLineFrom change begun text with
  | case1 begun =>
    rw [List.append_nil]
    exact lines_change keeps unbroken
  | case2 begun rest inductionHypothesis =>
    have both : ∀ behind, lines ('\r' :: '\n' :: behind) = [] :: lines behind := fun _ => rfl
    rw [lines_append (changed begun unbroken) (both _), lines_append unbroken (both _),
      inductionHypothesis fresh]
    simp
  | case3 begun c rest single lineBreak inductionHypothesis =>
    have alone : ¬ (c = '\r' ∧ rest.head? = some '\n') := by
      rintro ⟨returns, feeds⟩
      rcases List.head?_eq_some_iff.mp feeds with ⟨others, rfl⟩
      exact single others returns rfl
    have still : ¬ (c = '\r' ∧ (eachLineFrom change [] rest).head? = some '\n') :=
      fun both => head?_eachLineFrom keeps fresh (fun feeds => alone ⟨both.1, feeds⟩) both.2
    have ends : lines (c :: rest) = [] :: lines rest := by rw [lines_cons alone, if_pos lineBreak]
    have endsChanged : lines (c :: eachLineFrom change [] rest) =
        [] :: lines (eachLineFrom change [] rest) := by rw [lines_cons still, if_pos lineBreak]
    rw [lines_append_break (changed begun unbroken) endsChanged, lines_append_break unbroken ends,
      inductionHypothesis fresh, List.nil_append, List.map_cons]
  | case4 begun c rest _ solid inductionHypothesis =>
    rw [inductionHypothesis (unbroken_append unbroken (by simpa [Unbroken] using solid))]
    simp

/-- The lines of a text with every line changed are the changed lines. -/
theorem lines_eachLine (keeps : KeepsLines change) (text : List Char) :
    lines (eachLine change text) = (lines text).map change :=
  lines_eachLineFrom keeps (fun _ member => by cases member) text

end Text
end FiniteAutomata
