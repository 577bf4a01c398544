import FiniteAutomata.Json.Reader
import FiniteAutomata.Json.Writer
import FiniteAutomata.Proofs.Text.Decimal

namespace FiniteAutomata
namespace Json

/-!
# JSON that is read back

What is written of a value is read as the same value.  This holds of every
value of names, texts, whole numbers, lists and objects that is not nested too
deep and has no number with too many digits: objects keep the order of their
members and members whose keys recur.

A written number does not say where it ends, so a value is read back in front
of what closes it: a comma, a bracket, a brace, or the end of the text.
-/

open Text (hexDigit hexDigits)

variable {limit : Nat}

/-! ## Strings -/

theorem hexValue?_hexDigit : ∀ value < 16, hexValue? (hexDigit value) = some value := by
  decide

theorem hexDigits_four (code : Nat) : hexDigits 4 code =
    [hexDigit (code / 16 / 16 / 16 % 16), hexDigit (code / 16 / 16 % 16), hexDigit (code / 16 % 16),
      hexDigit (code % 16)] := by
  simp [hexDigits]

/-- Four digits hold any code point of two octets. -/
theorem hexValues?_hexDigits {code : Nat} (small : code < 0x10000) :
    hexValues? (hexDigit (code / 16 / 16 / 16 % 16)) (hexDigit (code / 16 / 16 % 16))
      (hexDigit (code / 16 % 16)) (hexDigit (code % 16)) = some code := by
  have value : ∀ rest, hexValue? (hexDigit (rest % 16)) = some (rest % 16) := fun rest =>
    hexValue?_hexDigit _ (Nat.mod_lt _ (by decide))
  simp only [hexValues?, value, Option.some.injEq]
  omega

/-- The characters that are escaped by a letter. -/
def lettered : List Char :=
  ['"', '\\', '\x08', '\t', '\n', '\x0c', '\r']

theorem escaped_of_notMem {c : Char} (plain : c ∉ lettered) : escaped c =
    if c.toNat < 0x20 then '\\' :: 'u' :: hexDigits 4 c.toNat else [c] := by
  simp only [lettered, List.mem_cons, List.not_mem_nil, or_false, not_or] at plain
  rcases plain with ⟨quote, backslash, backspace, tab, feed, page, carriage⟩
  simp only [escaped, if_neg quote, if_neg backslash, if_neg backspace, if_neg tab, if_neg feed,
    if_neg page, if_neg carriage]

/-- A character is read from its escape, whatever follows. -/
theorem readString_escaped (c : Char) (rest : List Char) :
    readString (escaped c ++ rest) = (readString rest).map fun parts => (c :: parts.1, parts.2) := by
  by_cases short : c ∈ lettered
  · simp only [lettered, List.mem_cons, List.not_mem_nil, or_false] at short
    rcases short with rfl | rfl | rfl | rfl | rfl | rfl | rfl <;> rfl
  rw [escaped_of_notMem short]
  by_cases control : c.toNat < 0x20
  · have noSurrogate : ¬ (decide (0xD800 ≤ c.toNat) && decide (c.toNat < 0xE000)) = true := by
      simp
      omega
    rw [if_pos control, hexDigits_four]
    simp only [List.cons_append, List.nil_append]
    rw [readString, hexValues?_hexDigits (by omega)]
    dsimp only
    rw [if_neg noSurrogate, Char.ofNat_toNat]
  · have quote : c ≠ '"' := by
      rintro rfl
      exact short (by decide)
    have backslash : c ≠ '\\' := by
      rintro rfl
      exact short (by decide)
    rw [if_neg control, List.singleton_append, readString, if_neg control]
    · exact quote
    · exact fun _ _ _ _ _ same => absurd same backslash
    · exact fun _ _ same => absurd same backslash

theorem readString_flatMap_escaped (text rest : List Char) :
    readString (text.flatMap escaped ++ '"' :: rest) = some (text, rest) := by
  induction text with
  | nil => rfl
  | cons c more inductionHypothesis =>
    rw [List.flatMap_cons, List.append_assoc, readString_escaped, inductionHypothesis]
    rfl

theorem stringChars_append (text : String) (rest : List Char) :
    stringChars text ++ rest = '"' :: (text.toList.flatMap escaped ++ '"' :: rest) := by
  simp [stringChars]

/-! ## What closes a value -/

/-- The rest of a text behind a value. -/
def Closes (rest : List Char) : Prop :=
  ∀ c ∈ rest.head?, c = ',' ∨ c = ']' ∨ c = '\x7d'

theorem closes_nil : Closes [] := by
  simp [Closes]

theorem closes_cons {c : Char} (closing : c = ',' ∨ c = ']' ∨ c = '\x7d') (rest : List Char) :
    Closes (c :: rest) := by
  simpa [Closes] using closing

/-- Nothing that closes a value goes on with a number. -/
theorem readNumberEnd_of_closes {rest : List Char} (closes : Closes rest) :
    readDigits rest = ([], rest) ∧ readFraction rest = some ([], rest) ∧
      readExponent rest = some (none, rest) := by
  cases rest with
  | nil => exact ⟨rfl, rfl, rfl⟩
  | cons c more => rcases closes c rfl with rfl | rfl | rfl <;> exact ⟨rfl, rfl, rfl⟩

/-! ## Numbers -/

/-- A digit is read as its value, and no other value begins with it. -/
theorem basicDigit?_digitChar : ∀ digit < 10, Text.basicDigit? digit.digitChar = some digit ∧
    isGap digit.digitChar = false ∧
      ∀ c ∈ ['"', '[', ']', '\x7b', '\x7d', '-', 'n', 't', 'f', 'N', 'I'], digit.digitChar ≠ c := by
  have known : ∀ digit < 10, Text.basicDigit? digit.digitChar = some digit ∧
      isGap digit.digitChar = false ∧
        digit.digitChar ∉ ['"', '[', ']', '\x7b', '\x7d', '-', 'n', 't', 'f', 'N', 'I'] := by
    decide
  intro digit small
  rcases known digit small with ⟨value, solid, other⟩
  exact ⟨value, solid, fun c listed same => other (same ▸ listed)⟩

theorem readDigits_append {digits : List Nat} (bounded : ∀ digit ∈ digits, digit < 10)
    {rest : List Char} (closes : Closes rest) :
    readDigits (digits.map Nat.digitChar ++ rest) = (digits, rest) := by
  induction digits with
  | nil => exact (readNumberEnd_of_closes closes).1
  | cons digit others inductionHypothesis =>
    rcases List.forall_mem_cons.mp bounded with ⟨first, later⟩
    rw [List.map_cons, List.cons_append, readDigits, (basicDigit?_digitChar digit first).1]
    dsimp only
    rw [inductionHypothesis later]

/-- A number of so many digits is read back behind its sign. -/
theorem readNumber_toDigits (negative : Bool) {number : Nat}
    (short : (Nat.toDigits 10 number).length ≤ limit) {rest : List Char}
    (closes : Closes rest) : readNumber limit negative (Nat.toDigits 10 number ++ rest) =
      some (.int (Text.signed negative number), rest) := by
  rcases Text.exists_digits number with ⟨digits, present, bounded, written, denotes⟩
  have size : digits.length ≤ limit := by
    rwa [written, List.length_map] at short
  have leading : ∀ second more, digits ≠ 0 :: second :: more := by
    rintro second more rfl
    by_cases zero : number = 0
    · rw [zero] at written
      cases written
    · apply Text.head?_toDigits (Nat.pos_of_ne_zero zero)
      rw [written]
      rfl
  have whole : readWhole limit (digits.map Nat.digitChar ++ rest) = some (digits, rest) := by
    rw [readWhole, readDigits_append bounded closes]
    split
    · rename_i same
      exact absurd (Prod.mk.inj same).1 present
    · rename_i second more _ same
      exact absurd (Prod.mk.inj same).1 (leading second more)
    · rename_i same
      rcases Prod.mk.inj same with ⟨rfl, rfl⟩
      rw [if_pos size]
  rcases readNumberEnd_of_closes closes with ⟨_, fraction, exponent⟩
  rw [written, readNumber, whole]
  dsimp only
  rw [fraction]
  dsimp only
  rw [exponent]
  simp [denotes]

/-! ## Values that are read back -/

/-- A value of parts that JSON can write, in lists and objects nested at most so
deep. -/
inductive Legible (limit : Nat) : Nat → Value → Prop
  | null (depth : Nat) : Legible limit depth .null
  | bool (depth : Nat) (value : Bool) : Legible limit depth (.bool value)
  | int (depth : Nat) {value : Int}
    (short : (Nat.toDigits 10 value.natAbs).length ≤ limit) : Legible limit depth (.int value)
  | string (depth : Nat) (text : String) : Legible limit depth (.string text)
  | list {depth : Nat} {items : List Value} (legible : ∀ item ∈ items, Legible limit depth item) :
    Legible limit (depth + 1) (.list items)
  | object {depth : Nat} {members : List (String × Value)}
    (legible : ∀ member ∈ members, Legible limit depth member.2) :
    Legible limit (depth + 1) (.object members)

/-- Wherever it stands, a value is read from what is written of it. -/
def ReadsBack (limit depth : Nat) (value : Value) : Prop :=
  ∀ fuel rest, (chars value).length ≤ fuel → Closes rest →
    readValue limit fuel depth (chars value ++ rest) = some (value, rest)

theorem skipGap_cons {c : Char} (solid : isGap c = false) (rest : List Char) :
    skipGap (c :: rest) = c :: rest := by
  rw [skipGap, List.dropWhile_cons_of_neg (by simp [solid])]

/-- A text that begins with a character that neither is a gap nor closes
anything. -/
def Opens (text : List Char) : Prop :=
  ∃ c rest, text = c :: rest ∧ isGap c = false ∧ c ≠ ']' ∧ c ≠ '\x7d'

theorem Opens.append {text : List Char} (opens : Opens text) (rest : List Char) :
    Opens (text ++ rest) := by
  rcases opens with ⟨c, more, rfl, facts⟩
  exact ⟨c, more ++ rest, rfl, facts⟩

theorem Opens.skipGap_eq {text : List Char} (opens : Opens text) : skipGap text = text := by
  rcases opens with ⟨c, rest, rfl, solid, _⟩
  exact skipGap_cons solid rest

theorem opens_stringChars (text : String) : Opens (stringChars text) :=
  ⟨'"', _, rfl, by decide, by decide, by decide⟩

/-! ### Whole numbers -/

theorem intChars_ofNat (number : Nat) : intChars number = Nat.toDigits 10 number :=
  Text.toList_toString number

theorem intChars_negSucc (number : Nat) :
    intChars (Int.negSucc number) = '-' :: Nat.toDigits 10 (number + 1) := by
  have written : toString (Int.negSucc number) = "-" ++ toString (number + 1) := rfl
  rw [intChars, written, String.toList_append, Text.toList_toString]
  rfl

theorem exists_toDigits_cons (number : Nat) : ∃ digit < 10, ∃ rest,
    Nat.toDigits 10 number = digit.digitChar :: rest := by
  rcases Text.exists_digits number with ⟨digits, present, bounded, written, _⟩
  cases digits with
  | nil => exact absurd rfl present
  | cons digit others => exact ⟨digit, bounded digit List.mem_cons_self, _, written⟩

theorem opens_intChars (value : Int) : Opens (intChars value) := by
  cases value with
  | ofNat number =>
    rcases exists_toDigits_cons number with ⟨digit, small, rest, written⟩
    rcases basicDigit?_digitChar digit small with ⟨_, solid, apart⟩
    exact ⟨digit.digitChar, rest, (intChars_ofNat number).trans written, solid,
      apart ']' (by decide), apart '\x7d' (by decide)⟩
  | negSucc number =>
    exact ⟨'-', _, intChars_negSucc number, by decide, by decide, by decide⟩

/-- A value that is no list and no object has no parts. -/
theorem readValue_scalar (fuel depth : Nat) {c : Char} (noList : c ≠ '[') (noObject : c ≠ '\x7b')
    (rest : List Char) :
    readValue limit (fuel + 1) depth (c :: rest) = readScalar limit (c :: rest) := by
  rw [readValue]
  · exact fun _ same => noList (List.cons.inj same).1
  · exact fun _ same => noObject (List.cons.inj same).1

/-- No name of a value begins with a digit, or with a digit behind a hyphen. -/
theorem readName_digit {digit : Nat} (small : digit < 10) (rest : List Char) :
    readName (digit.digitChar :: rest) = none ∧ readName ('-' :: digit.digitChar :: rest) = none := by
  rcases basicDigit?_digitChar digit small with ⟨_, _, apart⟩
  have other : ∀ c ∈ ['-', 'n', 't', 'f', 'N', 'I'], c ≠ digit.digitChar := fun c listed =>
    (apart c (List.mem_of_mem_drop (i := 5) listed)).symm
  simp [readName, other]

theorem readScalar_digit {digit : Nat} (small : digit < 10) (rest : List Char) :
    readScalar limit (digit.digitChar :: rest) = readNumber limit false (digit.digitChar :: rest) ∧
      readScalar limit ('-' :: digit.digitChar :: rest) =
        readNumber limit true (digit.digitChar :: rest) := by
  rcases basicDigit?_digitChar digit small with ⟨_, _, apart⟩
  rcases readName_digit small rest with ⟨unsigned, signed⟩
  constructor
  · rw [readScalar, unsigned]
    · exact fun _ same => apart '"' (by decide) (List.cons.inj same).1
    · exact fun _ same => apart '-' (by decide) (List.cons.inj same).1
  · rw [readScalar, signed]

theorem readsBack_int (depth : Nat) {value : Int}
    (short : (Nat.toDigits 10 value.natAbs).length ≤ limit) :
    ReadsBack limit depth (.int value) := by
  intro fuel rest enough closes
  rw [chars] at enough ⊢
  cases fuel with
  | zero =>
    rcases opens_intChars value with ⟨c, more, written, _⟩
    simp [written] at enough
  | succ fuel =>
    cases value with
    | ofNat number =>
      rcases exists_toDigits_cons number with ⟨digit, small, more, written⟩
      have apart := (basicDigit?_digitChar digit small).2.2
      have read : readNumber limit false (Nat.toDigits 10 number ++ rest) = _ :=
        readNumber_toDigits false short closes
      rw [Int.ofNat_eq_natCast, intChars_ofNat, written, List.cons_append,
        readValue_scalar fuel depth (apart '[' (by decide)) (apart '\x7b' (by decide)),
        (readScalar_digit small _).1, ← List.cons_append, ← written, read]
      rfl
    | negSucc number =>
      rcases exists_toDigits_cons (number + 1) with ⟨digit, small, more, written⟩
      have read : readNumber limit true (Nat.toDigits 10 (number + 1) ++ rest) = _ :=
        readNumber_toDigits true short closes
      rw [intChars_negSucc, written, List.cons_append, List.cons_append,
        readValue_scalar fuel depth (by decide) (by decide), (readScalar_digit small _).2,
        ← List.cons_append, ← written, read]
      rfl

/-! ### Names of values and strings -/

theorem readsBack_null (depth : Nat) : ReadsBack limit depth .null := by
  intro fuel rest enough _
  cases fuel with
  | zero => exact absurd enough (by decide)
  | succ fuel => rfl

theorem readsBack_bool (depth : Nat) (value : Bool) : ReadsBack limit depth (.bool value) := by
  intro fuel rest enough _
  cases fuel with
  | zero =>
    cases value with
    | false => exact absurd enough (by decide)
    | true => exact absurd enough (by decide)
  | succ fuel =>
    cases value with
    | false => rfl
    | true => rfl

theorem readsBack_string (depth : Nat) (text : String) : ReadsBack limit depth (.string text) := by
  intro fuel rest enough _
  rw [chars] at enough ⊢
  cases fuel with
  | zero => simp [stringChars] at enough
  | succ fuel =>
    rw [stringChars_append, readValue_scalar fuel depth (by decide) (by decide), readScalar,
      readString_flatMap_escaped, Option.map_some, String.ofList_toList]

/-! ### Lists and objects -/

theorem readValue_list (fuel depth : Nat) {text : List Char} (opens : Opens text) :
    readValue limit (fuel + 1) (depth + 1) ('[' :: text) =
      (readItems limit fuel depth text).map fun parts => (.list parts.1, parts.2) := by
  have gap := opens.skipGap_eq
  rcases opens with ⟨c, rest, rfl, _, noBracket, _⟩
  rw [readValue.eq_def]
  simp only [gap]
  split
  · exact absurd (List.cons.inj ‹_›).1 noBracket
  · exact absurd ‹_› (Nat.succ_ne_zero depth)
  · rename_i same _
    rw [Nat.succ_inj.mp same]

theorem readValue_object (fuel depth : Nat) {text : List Char} (opens : Opens text) :
    readValue limit (fuel + 1) (depth + 1) ('\x7b' :: text) =
      (readMembers limit fuel depth text).map fun parts => (.object parts.1, parts.2) := by
  have gap := opens.skipGap_eq
  rcases opens with ⟨c, rest, rfl, _, _, noBrace⟩
  rw [readValue.eq_def]
  simp only [gap]
  split
  · exact absurd (List.cons.inj ‹_›).1 noBrace
  · exact absurd ‹_› (Nat.succ_ne_zero depth)
  · rename_i same _
    rw [Nat.succ_inj.mp same]

theorem opens_chars {depth : Nat} {value : Value} (legible : Legible limit depth value) :
    Opens (chars value) := by
  cases legible with
  | null => exact ⟨'n', _, rfl, by decide, by decide, by decide⟩
  | bool _ value =>
    cases value with
    | false => exact ⟨'f', _, rfl, by decide, by decide, by decide⟩
    | true => exact ⟨'t', _, rfl, by decide, by decide, by decide⟩
  | int => exact opens_intChars _
  | string => exact opens_stringChars _
  | list => exact ⟨'[', _, rfl, by decide, by decide, by decide⟩
  | object => exact ⟨'\x7b', _, rfl, by decide, by decide, by decide⟩

theorem separated_cons_cons (piece next : List Char) (rest : List (List Char)) :
    separated (piece :: next :: rest) = piece ++ ',' :: separated (next :: rest) := rfl

theorem opens_separated {piece : List Char} (opens : Opens piece) (rest : List (List Char)) :
    Opens (separated (piece :: rest)) := by
  cases rest with
  | nil => exact opens
  | cons next more => exact opens.append _

theorem readItems_separated {depth : Nat} {item : Value} {others : List Value}
    (opens : ∀ value ∈ item :: others, Opens (chars value))
    (readsBack : ∀ value ∈ item :: others, ReadsBack limit depth value) (fuel : Nat) (rest : List Char)
    (enough : (separated (itemChars (item :: others))).length < fuel) :
    readItems limit fuel depth (separated (itemChars (item :: others)) ++ ']' :: rest) =
      some (item :: others, rest) := by
  have comma : isGap ',' = false := by decide
  induction others generalizing item fuel with
  | nil =>
    cases fuel with
    | zero => exact absurd enough (Nat.not_lt_zero _)
    | succ fuel =>
      have first := readsBack item List.mem_cons_self fuel (']' :: rest) (Nat.lt_succ_iff.mp enough)
        (closes_cons (by simp) rest)
      simp only [itemChars, separated]
      rw [readItems, first]
      rfl
  | cons next others inductionHypothesis =>
    cases fuel with
    | zero => exact absurd enough (Nat.not_lt_zero _)
    | succ fuel =>
      rcases List.forall_mem_cons.mp opens with ⟨_, laterOpens⟩
      rcases List.forall_mem_cons.mp readsBack with ⟨firstReadsBack, laterReadsBack⟩
      simp only [itemChars, separated_cons_cons, List.length_append, List.length_cons] at enough
      have later := inductionHypothesis laterOpens laterReadsBack fuel
        (by simp only [itemChars]; omega)
      have gap := ((opens_separated (laterOpens next List.mem_cons_self)
        (itemChars others)).append (']' :: rest)).skipGap_eq
      have first := firstReadsBack fuel
        (',' :: (separated (chars next :: itemChars others) ++ ']' :: rest)) (by omega)
        (closes_cons (by simp) _)
      simp only [itemChars] at later ⊢
      rw [separated_cons_cons, List.append_assoc, List.cons_append, readItems, first]
      simp only [skipGap_cons comma, gap, later, Option.map_some]

/-- A member is a key and a value with a colon in between, and a comma or the
closing brace behind it. -/
theorem readMembers_member {fuel depth : Nat} {key : String} {value : Value} {after : List Char}
    (opens : Opens (chars value)) (readsBack : ReadsBack limit depth value)
    (enough : (chars value).length ≤ fuel) (closes : Closes after) :
    (∀ more, skipGap after = ',' :: more →
      readMembers limit (fuel + 1) depth (stringChars key ++ ':' :: (chars value ++ after)) =
        (readMembers limit fuel depth (skipGap more)).map fun parts =>
          ((key, value) :: parts.1, parts.2)) ∧
      ∀ more, skipGap after = '\x7d' :: more →
        readMembers limit (fuel + 1) depth (stringChars key ++ ':' :: (chars value ++ after)) =
          some ([(key, value)], more) := by
  have colon : isGap ':' = false := by decide
  rw [stringChars_append, readMembers, readString_flatMap_escaped]
  simp only [skipGap_cons colon, (opens.append after).skipGap_eq, readsBack fuel after enough closes,
    String.ofList_toList]
  constructor
  · intro more behind
    simp only [behind]
  · intro more behind
    simp only [behind]

theorem readMembers_separated {depth : Nat} {member : String × Value}
    {others : List (String × Value)}
    (opens : ∀ entry ∈ member :: others, Opens (chars entry.2))
    (readsBack : ∀ entry ∈ member :: others, ReadsBack limit depth entry.2) (fuel : Nat)
    (rest : List Char) (enough : (separated (memberChars (member :: others))).length < fuel) :
    readMembers limit fuel depth (separated (memberChars (member :: others)) ++ '\x7d' :: rest) =
      some (member :: others, rest) := by
  have brace : isGap '\x7d' = false := by decide
  have comma : isGap ',' = false := by decide
  induction others generalizing member fuel with
  | nil =>
    cases fuel with
    | zero => exact absurd enough (Nat.not_lt_zero _)
    | succ fuel =>
      simp only [memberChars, separated, List.length_append, List.length_cons] at enough
      simp only [memberChars, separated, List.append_assoc, List.cons_append]
      exact (readMembers_member (opens member List.mem_cons_self)
        (readsBack member List.mem_cons_self) (by omega) (closes_cons (by simp) rest)).2 rest
          (skipGap_cons brace rest)
  | cons next others inductionHypothesis =>
    cases fuel with
    | zero => exact absurd enough (Nat.not_lt_zero _)
    | succ fuel =>
      rcases List.forall_mem_cons.mp opens with ⟨firstOpens, laterOpens⟩
      rcases List.forall_mem_cons.mp readsBack with ⟨firstReadsBack, laterReadsBack⟩
      simp only [memberChars, separated_cons_cons, List.length_append, List.length_cons] at enough
      have later := inductionHypothesis laterOpens laterReadsBack fuel
        (by simp only [memberChars]; omega)
      have gap := ((opens_separated ((opens_stringChars next.1).append (':' :: chars next.2))
        (memberChars others)).append ('\x7d' :: rest)).skipGap_eq
      simp only [memberChars] at later ⊢
      simp only [separated_cons_cons, List.append_assoc, List.cons_append]
      rw [(readMembers_member firstOpens firstReadsBack (by omega) (closes_cons (by simp) _)).1 _
        (skipGap_cons comma _), gap, later, Option.map_some]

/-- Lists and objects are read back if their parts are, one level deeper. -/
theorem readsBack_list {depth : Nat} {items : List Value}
    (opens : ∀ value ∈ items, Opens (chars value))
    (readsBack : ∀ value ∈ items, ReadsBack limit depth value) :
    ReadsBack limit (depth + 1) (.list items) := by
  intro fuel rest enough _
  rw [chars] at enough ⊢
  cases fuel with
  | zero => simp at enough
  | succ fuel =>
    cases items with
    | nil => rfl
    | cons item others =>
      simp only [List.length_append, List.length_cons, List.length_nil] at enough
      have opensAll : Opens (separated (itemChars (item :: others))) :=
        opens_separated (opens item List.mem_cons_self) (itemChars others)
      rw [List.append_assoc, List.cons_append, List.singleton_append,
        readValue_list fuel depth (opensAll.append _),
        readItems_separated opens readsBack fuel rest (by omega)]
      rfl

theorem readsBack_object {depth : Nat} {members : List (String × Value)}
    (opens : ∀ member ∈ members, Opens (chars member.2))
    (readsBack : ∀ member ∈ members, ReadsBack limit depth member.2) :
    ReadsBack limit (depth + 1) (.object members) := by
  intro fuel rest enough _
  rw [chars] at enough ⊢
  cases fuel with
  | zero => simp at enough
  | succ fuel =>
    cases members with
    | nil => rfl
    | cons member others =>
      simp only [List.length_append, List.length_cons, List.length_nil] at enough
      have opensAll : Opens (separated (memberChars (member :: others))) :=
        opens_separated ((opens_stringChars member.1).append (':' :: chars member.2))
          (memberChars others)
      rw [List.append_assoc, List.cons_append, List.singleton_append,
        readValue_object fuel depth (opensAll.append _),
        readMembers_separated opens readsBack fuel rest (by omega)]
      rfl

/-! ## Whole texts -/

theorem readsBack_of_legible {depth : Nat} {value : Value} (legible : Legible limit depth value) :
    ReadsBack limit depth value := by
  induction legible with
  | null depth => exact readsBack_null depth
  | bool depth value => exact readsBack_bool depth value
  | int depth short => exact readsBack_int depth short
  | string depth text => exact readsBack_string depth text
  | list legible inductionHypothesis =>
    exact readsBack_list (fun value held => opens_chars (legible value held)) inductionHypothesis
  | object legible inductionHypothesis =>
    exact readsBack_object (fun member held => opens_chars (legible member held))
      inductionHypothesis

/-- What is written of a legible value is that value in JSON. -/
theorem readWithin?_write {depth : Nat} {value : Value} (legible : Legible limit depth value) :
    readWithin? limit depth (write value) = some value := by
  have read := readsBack_of_legible legible (2 * (chars value).length + 2) [] (by omega) closes_nil
  rw [List.append_nil] at read
  simp only [readWithin?, write, String.toList_ofList, (opens_chars legible).skipGap_eq, read]
  rfl

theorem read?_write {value : Value} (legible : Legible Text.digitLimit nestingLimit value) :
    read? (write value) = some value :=
  readWithin?_write legible

end Json
end FiniteAutomata
