import FiniteAutomata.Text.Utf8

namespace FiniteAutomata
namespace Text

/-!
# Text that was written as UTF-8

What `encode` writes of a text `decode` reads as the same text.  A character is
read from its octets wherever they stand: its lead octet opens it and bounds
the next octet by what no shorter form and no surrogate can have, and every
further octet brings six more bits of its code point.
-/

/-! ## Single octets -/

theorem toNat_octet {code : Nat} (small : code < 256) : (UInt8.ofNat code).toNat = code :=
  UInt8.toNat_ofNat_of_lt small

/-- A lead octet opens a longer character. -/
theorem decodeFrom_lead {position code : Nat} {opened : PartialChar} (least : 0x80 ≤ code)
    (small : code < 256) (found : PartialChar.ofLead? position (UInt8.ofNat code) = some opened)
    (rest : List UInt8) : decodeFrom position none (UInt8.ofNat code :: rest) =
      decodeFrom (position + 1) (some opened) rest := by
  have long : ¬ (UInt8.ofNat code).toNat < 0x80 := by
    rw [toNat_octet small]
    omega
  rw [decodeFrom, if_neg long, found]

/-- Any octet that continues a character is between the widest bounds. -/
theorem between_widest {part : Nat} (small : part < 64) :
    (0x80 : UInt8).toNat ≤ 0x80 + part ∧ 0x80 + part ≤ (0xBF : UInt8).toNat := by
  change 128 ≤ _ ∧ _ ≤ 191
  omega

theorem octet_between {low high : UInt8} {part : Nat} (small : part < 64)
    (between : low.toNat ≤ 0x80 + part ∧ 0x80 + part ≤ high.toNat) :
    low ≤ UInt8.ofNat (0x80 + part) ∧ UInt8.ofNat (0x80 + part) ≤ high := by
  rw [UInt8.le_iff_toNat_le, UInt8.le_iff_toNat_le, toNat_octet (by omega)]
  exact between

/-- An octet in the middle of a character brings its bits. -/
theorem decodeFrom_inner (position start owed code : Nat) (lead : UInt8) {low high : UInt8}
    {part : Nat} (small : part < 64)
    (between : low.toNat ≤ 0x80 + part ∧ 0x80 + part ≤ high.toNat) (rest : List UInt8) :
    decodeFrom position (some ⟨start, lead, owed + 2, low, high, code⟩)
        (UInt8.ofNat (0x80 + part) :: rest) =
      decodeFrom (position + 1) (some ⟨start, lead, owed + 1, 0x80, 0xBF, code * 64 + part⟩)
        rest := by
  rw [decodeFrom, if_pos (octet_between small between), toNat_octet (by omega),
    Nat.add_sub_cancel_left]
  exact if_neg (by dsimp only; omega)

/-- The last octet of a character brings its bits and closes it. -/
theorem decodeFrom_last (position start code : Nat) (lead : UInt8) {low high : UInt8}
    {part : Nat} (small : part < 64)
    (between : low.toNat ≤ 0x80 + part ∧ 0x80 + part ≤ high.toNat) (rest : List UInt8) :
    decodeFrom position (some ⟨start, lead, 1, low, high, code⟩)
        (UInt8.ofNat (0x80 + part) :: rest) =
      (decodeFrom (position + 1) none rest).map (Char.ofNat (code * 64 + part) :: ·) := by
  rw [decodeFrom, if_pos (octet_between small between), toNat_octet (by omega),
    Nat.add_sub_cancel_left]
  exact if_pos (Nat.le_refl 1)

/-! ## Lead octets -/

theorem ofLead?_of_two (start : Nat) {code : Nat} (least : 0x80 ≤ code) (bound : code < 0x800) :
    PartialChar.ofLead? start (UInt8.ofNat (0xC0 + code / 64)) =
      some ⟨start, UInt8.ofNat (0xC0 + code / 64), 1, 0x80, 0xBF, code / 64⟩ := by
  have lead : (UInt8.ofNat (0xC0 + code / 64)).toNat = 0xC0 + code / 64 := toNat_octet (by omega)
  unfold PartialChar.ofLead?
  simp only [lead]
  rw [if_pos (by omega), Nat.add_sub_cancel_left]

/-- The bounds for the second of three octets let every code point of three
octets pass that is no surrogate. -/
theorem exists_ofLead?_of_three (start : Nat) {code : Nat} (least : 0x800 ≤ code)
    (bound : code < 0x10000) (scalar : code < 0xD800 ∨ 0xDFFF < code) :
    ∃ low high, PartialChar.ofLead? start (UInt8.ofNat (0xE0 + code / 4096)) =
        some ⟨start, UInt8.ofNat (0xE0 + code / 4096), 2, low, high, code / 4096⟩ ∧
      low.toNat ≤ 0x80 + code / 64 % 64 ∧ 0x80 + code / 64 % 64 ≤ high.toNat := by
  have lead : (UInt8.ofNat (0xE0 + code / 4096)).toNat = 0xE0 + code / 4096 :=
    toNat_octet (by omega)
  have small : code / 64 % 64 < 64 := Nat.mod_lt _ (by decide)
  unfold PartialChar.ofLead?
  simp only [lead]
  rw [if_neg (by omega)]
  by_cases first : code / 4096 = 0
  · rw [if_pos (by omega), first]
    exact ⟨0xA0, 0xBF, rfl, by change 160 ≤ _; omega, (between_widest small).2⟩
  rw [if_neg (by omega)]
  by_cases surrogate : code / 4096 = 13
  · rw [if_pos (by omega), surrogate]
    exact ⟨0x80, 0x9F, rfl, (between_widest small).1, by change _ ≤ 159; omega⟩
  · rw [if_neg (by omega), if_pos (by omega), Nat.add_sub_cancel_left]
    exact ⟨0x80, 0xBF, rfl, between_widest small⟩

/-- The bounds for the second of four octets let every code point of four
octets pass. -/
theorem exists_ofLead?_of_four (start : Nat) {code : Nat} (least : 0x10000 ≤ code)
    (bound : code < 0x110000) :
    ∃ low high, PartialChar.ofLead? start (UInt8.ofNat (0xF0 + code / 262144)) =
        some ⟨start, UInt8.ofNat (0xF0 + code / 262144), 3, low, high, code / 262144⟩ ∧
      low.toNat ≤ 0x80 + code / 4096 % 64 ∧ 0x80 + code / 4096 % 64 ≤ high.toNat := by
  have lead : (UInt8.ofNat (0xF0 + code / 262144)).toNat = 0xF0 + code / 262144 :=
    toNat_octet (by omega)
  have small : code / 4096 % 64 < 64 := Nat.mod_lt _ (by decide)
  unfold PartialChar.ofLead?
  simp only [lead]
  rw [if_neg (by omega), if_neg (by omega), if_neg (by omega), if_neg (by omega)]
  by_cases first : code / 262144 = 0
  · rw [if_pos (by omega), first]
    exact ⟨0x90, 0xBF, rfl, by change 144 ≤ _; omega, (between_widest small).2⟩
  rw [if_neg (by omega)]
  by_cases last : code / 262144 = 4
  · rw [if_neg (by omega), if_pos (by omega), last]
    exact ⟨0x80, 0x8F, rfl, (between_widest small).1, by change _ ≤ 143; omega⟩
  · rw [if_pos (by omega), Nat.add_sub_cancel_left]
    exact ⟨0x80, 0xBF, rfl, between_widest small⟩

/-! ## Characters and texts -/

/-- The octets of a character are read as that character, whatever follows. -/
theorem decodeFrom_encodeChar (position : Nat) (c : Char) (rest : List UInt8) :
    decodeFrom position none (encodeChar c ++ rest) =
      (decodeFrom (position + (encodeChar c).length) none rest).map (c :: ·) := by
  have bounds : c.toNat < 0xD800 ∨ 0xDFFF < c.toNat ∧ c.toNat < 0x110000 := c.valid
  have itself : Char.ofNat c.toNat = c := Char.ofNat_toNat c
  have part : ∀ shift, c.toNat / shift % 64 < 64 := fun shift => Nat.mod_lt _ (by decide)
  by_cases one : c.toNat < 0x80
  · simp only [encodeChar, if_pos one, List.cons_append, List.nil_append]
    rw [decodeFrom, toNat_octet (by omega), if_pos one, itself]
    rfl
  by_cases two : c.toNat < 0x800
  · have code : c.toNat / 64 * 64 + c.toNat / 1 % 64 = c.toNat := by omega
    simp only [encodeChar, if_neg one, if_pos two, List.cons_append, List.nil_append]
    rw [decodeFrom_lead (by omega) (by omega) (ofLead?_of_two position (by omega) two),
      decodeFrom_last _ _ _ _ (part 1) (between_widest (part 1)),
      code, itself]
    rfl
  by_cases three : c.toNat < 0x10000
  · have code : (c.toNat / 4096 * 64 + c.toNat / 64 % 64) * 64 + c.toNat / 1 % 64 = c.toNat := by
      omega
    rcases exists_ofLead?_of_three position (by omega) three (by omega) with
      ⟨low, high, opened, between⟩
    simp only [encodeChar, if_neg one, if_neg two, if_pos three, List.cons_append, List.nil_append]
    rw [decodeFrom_lead (by omega) (by omega) opened,
      decodeFrom_inner _ _ 0 _ _ (part 64) between,
      decodeFrom_last _ _ _ _ (part 1) (between_widest (part 1)),
      code, itself]
    rfl
  · have code : ((c.toNat / 262144 * 64 + c.toNat / 4096 % 64) * 64 + c.toNat / 64 % 64) * 64 +
        c.toNat / 1 % 64 = c.toNat := by
      omega
    rcases exists_ofLead?_of_four position (Nat.le_of_not_lt three) (by omega) with
      ⟨low, high, opened, between⟩
    simp only [encodeChar, if_neg one, if_neg two, if_neg three, List.cons_append, List.nil_append]
    rw [decodeFrom_lead (by omega) (by omega) opened,
      decodeFrom_inner _ _ 1 _ _ (part 4096) between,
      decodeFrom_inner _ _ 0 _ _ (part 64) (between_widest (part 64)),
      decodeFrom_last _ _ _ _ (part 1) (between_widest (part 1)),
      code, itself]
    rfl

theorem decodeFrom_encode (position : Nat) (text : List Char) :
    decodeFrom position none (encode text) = .ok text := by
  induction text generalizing position with
  | nil => rfl
  | cons c rest inductionHypothesis =>
    rw [encode, List.flatMap_cons, decodeFrom_encodeChar, ← encode, inductionHypothesis]
    rfl

/-- A text is read from the octets that are written of it. -/
theorem decode_encode (text : List Char) : decode (encode text) = .ok text :=
  decodeFrom_encode 0 text

end Text
end FiniteAutomata
