import FiniteAutomata.Text.Blank
import FiniteAutomata.Text.Lines
import Mathlib.Data.List.DropRight

namespace FiniteAutomata
namespace Text

/-!
# Trimmed texts

Trimming takes blanks off the two ends and nothing else.  A text is its own
trimming exactly if neither its first nor its last character is blank, so a
text that is put together from pieces is trimmed by looking at its outer
pieces alone.
-/

/-! ## The ends of a trimmed text -/

theorem trimmed_eq_rdropWhile (text : List Char) :
    trimmed text = (text.dropWhile isBlank).rdropWhile isBlank :=
  rfl

theorem isBlank_of_head?_trimmed {text : List Char} {c : Char}
    (first : (trimmed text).head? = some c) : isBlank c = false := by
  rcases List.rdropWhile_prefix isBlank (text.dropWhile isBlank) with ⟨rest, whole⟩
  have front : (text.dropWhile isBlank).head? = some c := by
    rw [← whole, List.head?_append, ← trimmed_eq_rdropWhile, first]
    rfl
  have stops := List.head?_dropWhile_not isBlank text
  rw [front] at stops
  simpa using stops

theorem isBlank_of_getLast?_trimmed {text : List Char} {c : Char}
    (last : (trimmed text).getLast? = some c) : isBlank c = false := by
  have present : trimmed text ≠ [] := by
    intro empty
    rw [empty] at last
    cases last
  have stops : ¬ isBlank ((trimmed text).getLast present) = true :=
    List.rdropWhile_last_not isBlank (text.dropWhile isBlank) present
  rw [List.getLast?_eq_some_getLast present] at last
  rw [← Option.some.inj last]
  simpa using stops

/-- A text is its own trimming if no blank stands at either end. -/
theorem trimmed_eq_self {text : List Char}
    (first : ∀ c, text.head? = some c → isBlank c = false)
    (last : ∀ c, text.getLast? = some c → isBlank c = false) : trimmed text = text := by
  have front : text.dropWhile isBlank = text := by
    cases text with
    | nil => rfl
    | cons c rest => exact List.dropWhile_cons_of_neg (by simp [first c rfl])
  rw [trimmed_eq_rdropWhile, front, List.rdropWhile_eq_self_iff]
  intro present
  simp [last _ (List.getLast?_eq_some_getLast present)]

/-- Two texts without blanks at their ends make one that has none. -/
theorem trimmed_append_eq_self {front back : List Char} (presentFront : front ≠ [])
    (presentBack : back ≠ []) (solidFront : trimmed front = front)
    (solidBack : trimmed back = back) : trimmed (front ++ back) = front ++ back := by
  apply trimmed_eq_self
  · intro c first
    rw [List.head?_append_of_ne_nil _ presentFront, ← solidFront] at first
    exact isBlank_of_head?_trimmed first
  · intro c last
    rw [List.getLast?_append_of_ne_nil _ presentBack, ← solidBack] at last
    exact isBlank_of_getLast?_trimmed last

theorem trimmed_singleton {c : Char} (solid : isBlank c = false) : trimmed [c] = [c] := by
  apply trimmed_eq_self
  · rintro d ⟨⟩
    exact solid
  · rintro d ⟨⟩
    exact solid

theorem trimmed_between {first last : Char} (solidFirst : isBlank first = false)
    (solidLast : isBlank last = false) (inner : List Char) :
    trimmed (first :: inner ++ [last]) = first :: inner ++ [last] := by
  apply trimmed_eq_self
  · rintro c ⟨⟩
    exact solidFirst
  · intro c ends
    rw [List.getLast?_concat] at ends
    rcases Option.some.inj ends with rfl
    exact solidLast

theorem isTrimmed_iff {text : String} :
    isTrimmed text = true ↔ trimmed text.toList = text.toList := by
  rw [isTrimmed, trim, beq_iff_eq, ← String.toList_inj, String.toList_ofList]

/-! ## What trimming leaves -/

theorem mem_of_mem_trimmed {text : List Char} {c : Char} (member : c ∈ trimmed text) : c ∈ text :=
  (List.dropWhile_sublist isBlank).subset ((List.rdropWhile_prefix isBlank _).subset member)

/-- What stands around a trimmed text is blank. -/
theorem exists_trimmed (text : List Char) : ∃ before after,
    text = before ++ trimmed text ++ after ∧ (∀ c ∈ before, isBlank c = true) ∧
      ∀ c ∈ after, isBlank c = true := by
  refine ⟨text.takeWhile isBlank, (text.dropWhile isBlank).rtakeWhile isBlank, ?_, ?_, ?_⟩
  · rw [trimmed_eq_rdropWhile, List.append_assoc, List.rdropWhile_append_rtakeWhile,
      List.takeWhile_append_dropWhile]
  · exact fun _ member => List.mem_takeWhile_imp member
  · exact fun _ member => List.mem_rtakeWhile_imp member

/-- Blanks around a text go when it is trimmed. -/
theorem trimmed_append_append {before text after : List Char}
    (blankBefore : ∀ c ∈ before, isBlank c = true) (blankAfter : ∀ c ∈ after, isBlank c = true) :
    trimmed (before ++ text ++ after) = trimmed text := by
  have atEnd : ∀ front : List Char,
      (front ++ after).rdropWhile isBlank = front.rdropWhile isBlank := by
    intro front
    have blankBackwards : ∀ c ∈ after.reverse, isBlank c = true := by simpa using blankAfter
    rw [List.rdropWhile, List.reverse_append, List.dropWhile_append_of_pos blankBackwards]
    rfl
  have atFront :
      (before ++ text ++ after).dropWhile isBlank = (text ++ after).dropWhile isBlank := by
    rw [List.append_assoc, List.dropWhile_append_of_pos blankBefore]
  rw [trimmed_eq_rdropWhile, atFront, List.dropWhile_append]
  split
  · rename_i allBlank
    have gone : trimmed text = [] := by
      rw [trimmed_eq_rdropWhile, List.isEmpty_iff.mp allBlank]
      rfl
    rw [gone, ← List.nil_append (after.dropWhile isBlank), List.dropWhile_eq_nil_iff.mpr blankAfter]
    rfl
  · exact atEnd _

theorem trimmed_trimmed (text : List Char) : trimmed (trimmed text) = trimmed text :=
  trimmed_eq_self (fun _ first => isBlank_of_head?_trimmed first)
    fun _ last => isBlank_of_getLast?_trimmed last

/-- A text with nothing but blanks around it. -/
def Padded (padded core : List Char) : Prop :=
  ∃ before after, padded = before ++ core ++ after ∧ (∀ c ∈ before, isBlank c = true) ∧
    ∀ c ∈ after, isBlank c = true

/-- Trimming gives the text without blanks at its ends that was padded. -/
theorem trimmed_eq_iff {padded core : List Char} :
    trimmed padded = core ↔ Padded padded core ∧ trimmed core = core := by
  constructor
  · rintro rfl
    exact ⟨exists_trimmed padded, trimmed_trimmed padded⟩
  · rintro ⟨⟨before, after, rfl, blankBefore, blankAfter⟩, solid⟩
    rw [trimmed_append_append blankBefore blankAfter, solid]

theorem trimmed_append {before text : List Char} (blank : ∀ c ∈ before, isBlank c = true) :
    trimmed (before ++ text) = trimmed text := by
  have bare : trimmed (before ++ text ++ []) = trimmed text :=
    trimmed_append_append blank fun _ member => by cases member
  rwa [List.append_nil] at bare

/-- Only the end of a text is trimmed if it begins with a text that has no
blanks at its ends. -/
theorem exists_trimmed_append {front : List Char} (present : front ≠ [])
    (solid : trimmed front = front) (text : List Char) :
    ∃ kept, trimmed (front ++ text) = front ++ kept := by
  have behind : ∀ c ∈ text.rtakeWhile isBlank, isBlank c = true := fun _ member =>
    List.mem_rtakeWhile_imp member
  have parts : text.rdropWhile isBlank ++ text.rtakeWhile isBlank = text :=
    List.rdropWhile_append_rtakeWhile
  refine ⟨text.rdropWhile isBlank, ?_⟩
  calc trimmed (front ++ text)
      = trimmed ([] ++ (front ++ text.rdropWhile isBlank) ++ text.rtakeWhile isBlank) := by
        rw [List.nil_append, List.append_assoc, parts]
    _ = trimmed (front ++ text.rdropWhile isBlank) := trimmed_append_append (by simp) behind
    _ = front ++ text.rdropWhile isBlank := ?_
  apply trimmed_eq_self
  · intro c starts
    rw [List.head?_append_of_ne_nil _ present, ← solid] at starts
    exact isBlank_of_head?_trimmed starts
  · intro c ends
    rw [List.getLast?_append] at ends
    cases back : (text.rdropWhile isBlank).getLast? with
    | none =>
      rw [back, Option.none_or, ← solid] at ends
      exact isBlank_of_getLast?_trimmed ends
    | some d =>
      rw [back, Option.some_or] at ends
      rcases Option.some.inj ends with rfl
      have remains : text.rdropWhile isBlank ≠ [] := by
        intro nothing
        rw [nothing] at back
        cases back
      have stops := List.rdropWhile_last_not isBlank text remains
      rw [List.getLast?_eq_some_getLast remains] at back
      rw [← Option.some.inj back]
      simpa using stops

/-- Trimming keeps everything that a class without blanks keeps. -/
theorem filter_trimmed {keep : Char → Bool} (solid : ∀ c, isBlank c = true → keep c = false)
    (text : List Char) : (trimmed text).filter keep = text.filter keep := by
  rcases exists_trimmed text with ⟨before, after, whole, blankBefore, blankAfter⟩
  have front : before.filter keep = [] :=
    List.filter_eq_nil_iff.mpr fun c member => by simp [solid c (blankBefore c member)]
  have back : after.filter keep = [] :=
    List.filter_eq_nil_iff.mpr fun c member => by simp [solid c (blankAfter c member)]
  conv_rhs => rw [whole]
  simp [front, back]

/-! ## Line breaks are blank -/

theorem isBlank_of_isLineBreak {c : Char} (lineBreak : isLineBreak c = true) :
    isBlank c = true := by
  simp only [isLineBreak, Bool.or_eq_true, Bool.and_eq_true, decide_eq_true_eq, beq_iff_eq]
    at lineBreak
  simp only [isBlank, isSpace, Bool.or_eq_true, Bool.and_eq_true, decide_eq_true_eq, beq_iff_eq]
  omega

theorem isLineBreak_eq_false {c : Char} (solid : isBlank c = false) : isLineBreak c = false := by
  cases lineBreak : isLineBreak c with
  | false => rfl
  | true => exact absurd (isBlank_of_isLineBreak lineBreak) (by simp [solid])

end Text
end FiniteAutomata
