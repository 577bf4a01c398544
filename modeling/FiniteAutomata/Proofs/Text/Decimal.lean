import FiniteAutomata.Proofs.Text.Lines
import FiniteAutomata.Proofs.Text.Trimmed
import FiniteAutomata.Text.Number

namespace FiniteAutomata
namespace Text

/-!
# Sizes in writing

A natural number is written with its basic digits and no sign, blank or
underscore, so it is read back as what it is, as long as it does not have too
many digits.  No whole number in writing breaks a line.
-/

/-- A basic digit is read as its value, and it is no sign and no blank. -/
theorem digitValue?_digitChar : ∀ digit < 10, digitValue? digit.digitChar = some digit ∧
    digit.digitChar ≠ '-' ∧ digit.digitChar ≠ '+' ∧ isBlank digit.digitChar = false := by
  decide

theorem ofDigits_concat (base : Nat) (digits : List Nat) (digit : Nat) :
    ofDigits base (digits ++ [digit]) = ofDigits base digits * base + digit := by
  rw [ofDigits, List.foldl_append]
  rfl

/-- A number is written with the digits that denote it. -/
theorem exists_digits (number : Nat) : ∃ digits, digits ≠ [] ∧ (∀ digit ∈ digits, digit < 10) ∧
    Nat.toDigits 10 number = digits.map Nat.digitChar ∧ ofDigits 10 digits = number := by
  induction number using Nat.strong_induction_on with
  | _ number inductionHypothesis =>
    by_cases small : number < 10
    · refine ⟨[number], by simp, by simpa using small, Nat.toDigits_of_lt_base small, ?_⟩
      simp [ofDigits]
    · -- The last digit is the remainder, and the others are those of the quotient.
      have large : 10 ≤ number := Nat.not_lt.mp small
      have less : number / 10 < number := by omega
      rcases inductionHypothesis (number / 10) less with ⟨digits, _, bounded, written, denotes⟩
      refine ⟨digits ++ [number % 10], by simp, ?_, ?_, ?_⟩
      · intro digit member
        rcases List.mem_append.mp member with front | last
        · exact bounded digit front
        · rw [List.mem_singleton.mp last]
          exact Nat.mod_lt number (by decide)
      · rw [Nat.toDigits_of_base_le (by decide) large, written, List.map_append, List.map_singleton]
      · rw [ofDigits_concat, denotes]
        omega

/-- Only zero is written with a zero in front. -/
theorem head?_toDigits {number : Nat} (positive : 0 < number) :
    (Nat.toDigits 10 number).head? ≠ some '0' := by
  induction number using Nat.strong_induction_on with
  | _ number inductionHypothesis =>
    by_cases small : number < 10
    · have digits : ∀ digit < 10, 0 < digit → [digit.digitChar].head? ≠ some '0' := by decide
      rw [Nat.toDigits_of_lt_base small]
      exact digits number small positive
    · have large : 10 ≤ number := Nat.not_lt.mp small
      rw [Nat.toDigits_of_base_le (by decide) large, List.head?_append_of_ne_nil _ Nat.toDigits_ne_nil]
      exact inductionHypothesis (number / 10) (by omega) (by omega)

theorem separatedDigits_map {digits : List Nat} (present : digits ≠ [])
    (bounded : ∀ digit ∈ digits, digit < 10) :
    separatedDigits digitValue? (digits.map Nat.digitChar) = some digits := by
  induction digits with
  | nil => exact absurd rfl present
  | cons digit rest inductionHypothesis =>
    rcases List.forall_mem_cons.mp bounded with ⟨first, others⟩
    cases rest with
    | nil => simp [separatedDigits, digitValue?_digitChar digit first]
    | cons next more =>
      have later := inductionHypothesis (by simp) others
      rw [List.map_cons] at later
      simp [separatedDigits, digitValue?_digitChar digit first, later]

/-- Digits have no blanks at their ends, or anywhere. -/
theorem trimmed_digitChars {digits : List Nat} (bounded : ∀ digit ∈ digits, digit < 10) :
    trimmed (digits.map Nat.digitChar) = digits.map Nat.digitChar := by
  have solid : ∀ c ∈ digits.map Nat.digitChar, isBlank c = false := by
    intro c member
    rcases List.mem_map.mp member with ⟨digit, held, rfl⟩
    exact (digitValue?_digitChar digit (bounded digit held)).2.2.2
  apply trimmed_eq_self
  · exact fun c first => solid c (List.mem_of_head? first)
  · exact fun c last => solid c (List.mem_of_getLast? last)

theorem takeSign_digitChars {digits : List Nat} (bounded : ∀ digit ∈ digits, digit < 10) :
    takeSign (digits.map Nat.digitChar) = (false, digits.map Nat.digitChar) := by
  cases digits with
  | nil => rfl
  | cons digit rest =>
    rcases digitValue?_digitChar digit (bounded digit List.mem_cons_self) with
      ⟨_, noHyphen, noPlus, _⟩
    rw [List.map_cons, takeSign]
    · exact fun rest same => noHyphen (List.cons.inj same).1
    · exact fun rest same => noPlus (List.cons.inj same).1

theorem toList_toString (number : Nat) : (toString number).toList = Nat.toDigits 10 number :=
  String.toList_ofList

theorem trim_toString (number : Nat) : trim (toString number) = toString number := by
  rcases exists_digits number with ⟨digits, _, bounded, written, _⟩
  rw [trim, toList_toString, written, trimmed_digitChars bounded, ← written, ← toList_toString,
    String.ofList_toList]

theorem unbroken_toDigits (number : Nat) : Unbroken (Nat.toDigits 10 number) := by
  have solid : ∀ digit < 10, isLineBreak digit.digitChar = false := by decide
  rcases exists_digits number with ⟨digits, _, bounded, written, _⟩
  rw [written]
  intro c member
  rcases List.mem_map.mp member with ⟨digit, held, rfl⟩
  exact solid digit (bounded digit held)

/-- A whole number is written in one line. -/
theorem unbroken_toString (number : Int) : Unbroken (toString number).toList := by
  cases number with
  | ofNat size =>
    have written : toString (Int.ofNat size) = toString size := rfl
    rw [written, toList_toString]
    exact unbroken_toDigits size
  | negSucc size =>
    have written : toString (Int.negSucc size) = "-" ++ toString (size + 1) := rfl
    have sign : Unbroken "-".toList := by decide
    rw [written, String.toList_append, toList_toString]
    exact unbroken_append sign (unbroken_toDigits (size + 1))

/-- A size is read back from its digits. -/
theorem wholeNumber?_toString {number : Nat} (short : (toString number).length ≤ digitLimit) :
    wholeNumber? (toString number).toList = some (number : Int) := by
  rcases exists_digits number with ⟨digits, present, bounded, written, denotes⟩
  have size : digits.length ≤ digitLimit := by
    rwa [← String.length_toList, toList_toString, written, List.length_map] at short
  rw [wholeNumber?, toList_toString, written, trimmed_digitChars bounded,
    takeSign_digitChars bounded]
  dsimp only
  rw [separatedDigits_map present bounded]
  dsimp only
  rw [if_pos size, denotes]
  rfl

end Text
end FiniteAutomata
