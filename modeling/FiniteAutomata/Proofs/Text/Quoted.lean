import FiniteAutomata.Proofs.Text.Lines
import FiniteAutomata.Text.Quoted

namespace FiniteAutomata
namespace Text

/-!
# Quoted texts on one line

The quoted form of a text holds no line break, whatever the text holds.  No
line break prints, so each one is escaped, and an escape consists of letters
and digits behind a backslash.
-/

theorem isPrintable_of_isLineBreak {c : Char} (lineBreak : isLineBreak c = true) :
    isPrintable c = false := by
  have breaks : ∀ code ∈ [0x0A, 0x0B, 0x0C, 0x0D, 0x1C, 0x1D, 0x1E, 0x85, 0x2028, 0x2029],
      isPrintable (Char.ofNat code) = false := by
    decide +kernel
  have among : c.toNat ∈ [0x0A, 0x0B, 0x0C, 0x0D, 0x1C, 0x1D, 0x1E, 0x85, 0x2028, 0x2029] := by
    simp only [isLineBreak, Bool.or_eq_true, Bool.and_eq_true, decide_eq_true_eq, beq_iff_eq]
      at lineBreak
    simp only [List.mem_cons, List.not_mem_nil, or_false]
    omega
  rw [← Char.ofNat_toNat c]
  exact breaks _ among

theorem unbroken_hexDigits (width value : Nat) : Unbroken (hexDigits width value) := by
  have solid : ∀ digit < 16, isLineBreak (hexDigit digit) = false := by decide
  induction width generalizing value with
  | zero => exact fun _ member => by cases member
  | succ width inductionHypothesis =>
    refine unbroken_append (inductionHypothesis _) ?_
    intro c member
    rw [List.mem_singleton.mp member]
    exact solid _ (Nat.mod_lt value (by decide))

/-- A character is quoted without a line break. -/
theorem unbroken_quotedChar {quote : Char} (solid : isLineBreak quote = false) (c : Char) :
    Unbroken (quotedChar quote c) := by
  have escape : ∀ letter, isLineBreak letter = false → ∀ width value,
      Unbroken ('\\' :: letter :: hexDigits width value) := by
    intro letter plain width value
    exact unbroken_cons_iff.mpr
      ⟨by decide, unbroken_cons_iff.mpr ⟨plain, unbroken_hexDigits width value⟩⟩
  unfold quotedChar
  split
  · rename_i mark
    rcases mark with rfl | rfl
    · exact unbroken_cons_iff.mpr ⟨by decide, unbroken_cons_iff.mpr ⟨solid, by decide⟩⟩
    · decide
  split
  · decide
  split
  · decide
  split
  · decide
  split
  · rename_i prints
    intro d member
    rw [List.mem_singleton.mp member]
    cases lineBreak : isLineBreak c with
    | false => rfl
    | true => exact absurd prints (by simp [isPrintable_of_isLineBreak lineBreak])
  split
  · exact escape 'x' (by decide) 2 c.toNat
  split
  · exact escape 'u' (by decide) 4 c.toNat
  · exact escape 'U' (by decide) 8 c.toNat

theorem isLineBreak_quoteFor (text : List Char) : isLineBreak (quoteFor text) = false := by
  unfold quoteFor
  split <;> decide

/-- A quoted text stands on one line. -/
theorem unbroken_quoted (text : String) : Unbroken (quoted text).toList := by
  have solid := isLineBreak_quoteFor text.toList
  have mark : Unbroken [quoteFor text.toList] := unbroken_cons_iff.mpr ⟨solid, by decide⟩
  rw [quoted, String.toList_ofList]
  refine unbroken_append (unbroken_append mark ?_) mark
  intro c member
  rcases List.mem_flatMap.mp member with ⟨d, _, inside⟩
  exact unbroken_quotedChar solid d c inside

end Text
end FiniteAutomata
