import FiniteAutomata.Proofs.Json.ReadBack

namespace FiniteAutomata
namespace Json

/-!
# JSON in one line

What is written of a legible value holds no line feed, whatever characters its
texts hold: a string escapes every character below the space.  And it is read
back by a reader without limits, since a text has no number with more digits,
and nothing nested deeper, than it has characters.
-/

open Text (hexDigit)

variable {limit depth : Nat}

/-! ## No line feeds -/

theorem feed_notMem_escaped (c : Char) : '\n' ∉ escaped c := by
  by_cases short : c ∈ lettered
  · simp only [lettered, List.mem_cons, List.not_mem_nil, or_false] at short
    rcases short with rfl | rfl | rfl | rfl | rfl | rfl | rfl <;> decide
  rw [escaped_of_notMem short]
  split
  · have apart : ∀ digit < 16, hexDigit digit ≠ '\n' := by decide
    have digits : ∀ code, '\n' ≠ hexDigit (code % 16) := fun code =>
      (apart _ (Nat.mod_lt code (by decide))).symm
    simp [hexDigits_four, digits]
  · rw [List.mem_singleton]
    rintro rfl
    exact short (by decide)

theorem feed_notMem_stringChars (text : String) : '\n' ∉ stringChars text := by
  simp [stringChars, feed_notMem_escaped]

theorem feed_notMem_intChars (value : Int) : '\n' ∉ intChars value := by
  intro member
  exact absurd (Text.unbroken_toString value '\n' member) (by decide)

theorem feed_notMem_separated {pieces : List (List Char)}
    (solid : ∀ piece ∈ pieces, '\n' ∉ piece) : '\n' ∉ separated pieces := by
  induction pieces with
  | nil => exact List.not_mem_nil
  | cons piece rest inductionHypothesis =>
    rcases List.forall_mem_cons.mp solid with ⟨first, later⟩
    cases rest with
    | nil => exact first
    | cons next more =>
      rw [separated_cons_cons]
      simp [first, inductionHypothesis later]

theorem itemChars_eq (items : List Value) : itemChars items = items.map chars := by
  induction items with
  | nil => rfl
  | cons item rest inductionHypothesis => rw [itemChars, inductionHypothesis, List.map_cons]

theorem memberChars_eq (members : List (String × Value)) : memberChars members =
    members.map fun member => stringChars member.1 ++ ':' :: chars member.2 := by
  induction members with
  | nil => rfl
  | cons member rest inductionHypothesis =>
    rcases member with ⟨key, value⟩
    rw [memberChars, inductionHypothesis, List.map_cons]

/-- What is written of a value stands in one line. -/
theorem feed_notMem_chars {value : Value} (legible : Legible limit depth value) :
    '\n' ∉ chars value := by
  induction legible with
  | null => decide
  | bool _ value => cases value <;> decide
  | int => exact feed_notMem_intChars _
  | string _ text => exact feed_notMem_stringChars text
  | list legible inductionHypothesis =>
    rename_i items
    have solid : '\n' ∉ separated (itemChars items) := by
      apply feed_notMem_separated
      rw [itemChars_eq]
      exact List.forall_mem_map.mpr inductionHypothesis
    simp [chars, solid]
  | object legible inductionHypothesis =>
    rename_i members
    have solid : '\n' ∉ separated (memberChars members) := by
      apply feed_notMem_separated
      rw [memberChars_eq]
      intro piece among
      rcases List.mem_map.mp among with ⟨member, held, rfl⟩
      simp [feed_notMem_stringChars, inductionHypothesis member held]
    simp [chars, solid]

/-! ## Reading without limits -/

/-- The value of a text.  Its characters are as many as the digits of a number
and the levels of a value in it can be at most. -/
def decode? (text : String) : Option Value :=
  readWithin? text.length text.length text

theorem length_le_separated {pieces : List (List Char)} {piece : List Char}
    (member : piece ∈ pieces) : piece.length ≤ (separated pieces).length := by
  induction pieces with
  | nil => cases member
  | cons first rest inductionHypothesis =>
    cases rest with
    | nil => rw [List.mem_singleton.mp member, separated]
    | cons next more =>
      rw [separated_cons_cons, List.length_append, List.length_cons]
      rcases List.mem_cons.mp member with rfl | later
      · omega
      · have bound := inductionHypothesis later
        omega

theorem length_toDigits_le (value : Int) :
    (Nat.toDigits 10 value.natAbs).length ≤ (intChars value).length := by
  cases value with
  | ofNat number => exact le_of_eq (congrArg List.length (intChars_ofNat number)).symm
  | negSucc number =>
    rw [intChars_negSucc]
    exact Nat.le_succ _

/-- No value has more digits or levels than characters. -/
theorem Legible.tight {value : Value} (legible : Legible limit depth value) {length : Nat}
    (enough : (chars value).length ≤ length) (wide : Nat) (held : length ≤ wide) :
    Legible wide length value := by
  induction legible generalizing length with
  | null => exact .null _
  | bool => exact .bool _ _
  | int =>
    rw [chars] at enough
    exact .int _ (((length_toDigits_le _).trans enough).trans held)
  | string => exact .string _ _
  | list legible inductionHypothesis =>
    rename_i items
    simp only [chars, List.length_append, List.length_cons, List.length_nil] at enough
    obtain ⟨inner, rfl⟩ : ∃ inner, length = inner + 1 := ⟨length - 1, by omega⟩
    refine .list fun item member => inductionHypothesis item member ?_ (by omega)
    have bound : (chars item).length ≤ (separated (itemChars items)).length := by
      apply length_le_separated
      rw [itemChars_eq]
      exact List.mem_map_of_mem member
    omega
  | object legible inductionHypothesis =>
    rename_i members
    simp only [chars, List.length_append, List.length_cons, List.length_nil] at enough
    obtain ⟨inner, rfl⟩ : ∃ inner, length = inner + 1 := ⟨length - 1, by omega⟩
    refine .object fun member held => inductionHypothesis member held ?_ (by omega)
    have bound : (stringChars member.1 ++ ':' :: chars member.2).length ≤
        (separated (memberChars members)).length := by
      apply length_le_separated
      rw [memberChars_eq]
      exact List.mem_map_of_mem held
    rw [List.length_append, List.length_cons] at bound
    omega

/-- What is written of a value of names, texts, whole numbers, lists and
objects is that value, however long and deep it is. -/
theorem decode?_write {value : Value} (legible : Legible limit depth value) :
    decode? (write value) = some value := by
  have length : (write value).length = (chars value).length := by
    rw [write, ← String.length_toList, String.toList_ofList]
  rw [decode?, length]
  exact readWithin?_write (legible.tight (Nat.le_refl _) _ (Nat.le_refl _))

end Json
end FiniteAutomata
