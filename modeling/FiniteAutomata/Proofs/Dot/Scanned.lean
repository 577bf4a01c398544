import FiniteAutomata.Automaton.Dot
import FiniteAutomata.Proofs.Dot.Language

namespace FiniteAutomata
namespace Dot

/-!
# Scanning

A scan of two texts one behind the other is two scans, so what each piece of a
text does is said piece by piece.  A text that does not end in a backslash is
read back from between its quotes when the quotes inside of it are escaped;
and no text that is read ends in a backslash.
-/

/-- A quote behind the text ends it. -/
def Closed (text : List Char) : Prop :=
  text.getLast? ≠ some '\\'

instance (text : List Char) : Decidable (Closed text) :=
  inferInstanceAs (Decidable (¬ text.getLast? = some '\\'))

theorem closed_nil : Closed [] := by
  simp [Closed]

theorem closed_concat_iff {text : List Char} {c : Char} : Closed (text ++ [c]) ↔ c ≠ '\\' := by
  simp [Closed]

theorem closed_of_cons {c : Char} {rest : List Char} (closed : Closed (c :: rest)) :
    Closed rest := by
  cases rest with
  | nil => exact closed_nil
  | cons next others => simpa [Closed, List.getLast?_cons_cons] using closed

theorem ne_nil_of_closed {rest : List Char} (closed : Closed ('\\' :: rest)) : rest ≠ [] := by
  rintro rfl
  exact closed rfl

/-! ## Piece by piece -/

theorem scan_cons {mode next : Mode} {c : Char} {tokens : List Token}
    (step : mode.read c = some (tokens, next)) (rest : List Char) :
    scan mode (c :: rest) =
      (scan next rest).map fun scanned => (tokens ++ scanned.1, scanned.2) := by
  rw [scan, step]

theorem scan_append (mode : Mode) (front rest : List Char) :
    scan mode (front ++ rest) = (scan mode front).bind fun first =>
      (scan first.2 rest).map fun second => (first.1 ++ second.1, second.2) := by
  induction front generalizing mode with
  | nil =>
    rw [List.nil_append, scan, Option.bind_some]
    cases scan mode rest <;> rfl
  | cons c others inductionHypothesis =>
    rw [List.cons_append, scan, scan]
    cases mode.read c with
    | none => rfl
    | some step =>
      dsimp only
      rw [inductionHypothesis]
      cases scan step.2 others with
      | none => rfl
      | some first =>
        simp only [Option.bind_some, Option.map_some]
        cases scan first.2 rest with
        | none => rfl
        | some second => simp [List.append_assoc]

/-- A piece is scanned from one place to another. -/
def Scans (mode : Mode) (text : List Char) (tokens : List Token) (last : Mode) : Prop :=
  scan mode text = some (tokens, last)

instance (mode : Mode) (text : List Char) (tokens : List Token) (last : Mode) :
    Decidable (Scans mode text tokens last) :=
  inferInstanceAs (Decidable (scan mode text = some (tokens, last)))

theorem Scans.append {mode middle last : Mode} {front rest : List Char} {first second : List Token}
    (scansFront : Scans mode front first middle) (scansRest : Scans middle rest second last) :
    Scans mode (front ++ rest) (first ++ second) last := by
  rw [Scans] at *
  rw [scan_append, scansFront, Option.bind_some, scansRest]
  rfl

theorem Scans.cons {mode next last : Mode} {c : Char} {rest : List Char} {first second : List Token}
    (step : mode.read c = some (first, next)) (scansRest : Scans next rest second last) :
    Scans mode (c :: rest) (first ++ second) last := by
  rw [Scans] at *
  rw [scan_cons step, scansRest]
  rfl

/-! ## Between quotes -/

/-- A text with its quotes escaped. -/
def escaped (text : List Char) : List Char :=
  text.flatMap fun c => (labelChar c).toList

theorem escaped_cons (c : Char) (rest : List Char) :
    escaped (c :: rest) = if c = '"' then '\\' :: '"' :: escaped rest else c :: escaped rest := by
  by_cases quote : c = '"' <;> simp [escaped, labelChar, quote]

/-- Without quotes in it a text is spelled as it is. -/
theorem escaped_eq_self {text : List Char} (clear : '"' ∉ text) : escaped text = text := by
  induction text with
  | nil => rfl
  | cons c rest inductionHypothesis =>
    have parts : c ≠ '"' ∧ '"' ∉ rest := by
      simpa [eq_comm] using clear
    rw [escaped_cons, if_neg parts.1, inductionHypothesis parts.2]

/-- What is between quotes is read back.  Behind a backslash that was just read
the text may not be over. -/
theorem scans_escaped {text : List Char} (closed : Closed text) (valued : Bool)
    (read : List Char) :
    Scans (.quoted valued read) (escaped text ++ ['"']) [idToken valued (read ++ text)]
        (.outside false) ∧
      (text ≠ [] → Scans (.escaping valued read) (escaped text ++ ['"'])
        [idToken valued (read ++ '\\' :: text)] (.outside false)) := by
  have quoteEscaped (read : List Char) : (Mode.escaping valued read).read '"' =
      some ([], .quoted valued (read ++ ['"'])) := rfl
  have backslashRead (read : List Char) : (Mode.quoted valued read).read '\\' =
      some ([], .escaping valued read) := rfl
  have backslashAgain (read : List Char) : (Mode.escaping valued read).read '\\' =
      some ([], .escaping valued (read ++ ['\\'])) := rfl
  induction text generalizing read with
  | nil =>
    refine ⟨?_, fun present => absurd rfl present⟩
    rw [List.append_nil]
    exact rfl
  | cons c rest inductionHypothesis =>
    have later := inductionHypothesis (closed_of_cons closed)
    rw [escaped_cons]
    by_cases quote : c = '"'
    · subst quote
      rw [if_pos rfl]
      constructor
      · have behind := (later (read ++ ['"'])).1
        rw [List.append_assoc] at behind
        exact .cons (backslashRead read) (.cons (quoteEscaped read) behind)
      · intro _
        have behind := (later (read ++ ['\\'] ++ ['"'])).1
        have whole : read ++ ['\\'] ++ ['"'] ++ rest = read ++ '\\' :: '"' :: rest := by simp
        rw [whole] at behind
        exact .cons (backslashAgain read) (.cons (quoteEscaped _) behind)
    · rw [if_neg quote]
      by_cases backslash : c = '\\'
      · subst backslash
        have present := ne_nil_of_closed closed
        constructor
        · exact .cons (backslashRead read) ((later read).2 present)
        · intro _
          have behind := (later (read ++ ['\\'])).2 present
          rw [List.append_assoc] at behind
          exact .cons (backslashAgain read) behind
      · have plain : (Mode.quoted valued read).read c = some ([], .quoted valued (read ++ [c])) := by
          simp [Mode.read, quote, backslash]
        have released : (Mode.escaping valued read).read c =
            some ([], .quoted valued (read ++ ['\\', c])) := by
          simp [Mode.read, quote, backslash]
        constructor
        · have behind := (later (read ++ [c])).1
          rw [List.append_assoc] at behind
          exact .cons plain behind
        · intro _
          have behind := (later (read ++ ['\\', c])).1
          rw [List.append_assoc] at behind
          exact .cons released behind

theorem scans_quoted {text : List Char} (closed : Closed text) (valued : Bool) :
    Scans (.quoted valued []) (escaped text ++ ['"']) [idToken valued text] (.outside false) :=
  (scans_escaped closed valued []).1

/-! ## What holds along a scan -/

/-- A scan of the text that begins in one kind of place gives tokens of a kind
and ends in another kind of place, unless it fails. -/
def Leads (before : Mode → Prop) (text : List Char) (fits : Token → Prop)
    (behind : Mode → Prop) : Prop :=
  ∀ ⦃mode⦄, before mode → ∀ ⦃tokens last⦄, Scans mode text tokens last →
    (∀ token ∈ tokens, fits token) ∧ behind last

section Leads

variable {before middle behind : Mode → Prop} {fits : Token → Prop} {text front rest : List Char}

theorem leads_nil (included : ∀ mode, before mode → behind mode) : Leads before [] fits behind := by
  intro mode held tokens last scanned
  cases scanned
  exact ⟨by simp, included mode held⟩

theorem leads_cons {c : Char}
    (step : ∀ ⦃mode⦄, before mode → ∀ ⦃tokens next⦄, mode.read c = some (tokens, next) →
      (∀ token ∈ tokens, fits token) ∧ middle next)
    (later : Leads middle rest fits behind) : Leads before (c :: rest) fits behind := by
  intro mode held tokens last scanned
  rw [Scans, scan] at scanned
  cases stepped : mode.read c with
  | none =>
    rw [stepped] at scanned
    cases scanned
  | some entered =>
    rw [stepped] at scanned
    rcases Option.map_eq_some_iff.mp scanned with ⟨found, foundRest, same⟩
    cases same
    have first := step held stepped
    have second := later first.2 foundRest
    refine ⟨fun token member => ?_, second.2⟩
    exact (List.mem_append.mp member).elim (first.1 token) (second.1 token)

theorem Leads.append (first : Leads before front fits middle)
    (second : Leads middle rest fits behind) : Leads before (front ++ rest) fits behind := by
  intro mode held tokens last scanned
  rw [Scans, scan_append] at scanned
  rcases Option.bind_eq_some_iff.mp scanned with ⟨found, foundFront, continued⟩
  rcases Option.map_eq_some_iff.mp continued with ⟨more, foundRest, same⟩
  cases same
  have here := first held foundFront
  have there := second here.2 foundRest
  refine ⟨fun token member => ?_, there.2⟩
  exact (List.mem_append.mp member).elim (here.1 token) (there.1 token)

/-- What every character keeps, a text keeps. -/
theorem leads_of_step
    (step : ∀ c ∈ text, ∀ ⦃mode⦄, before mode → ∀ ⦃tokens next⦄,
      mode.read c = some (tokens, next) → (∀ token ∈ tokens, fits token) ∧ before next) :
    Leads before text fits before := by
  induction text with
  | nil => exact leads_nil fun _ held => held
  | cons c rest inductionHypothesis =>
    exact leads_cons (step c List.mem_cons_self)
      (inductionHypothesis fun other member => step other (List.mem_cons_of_mem _ member))

end Leads

/-! ## What a character does -/

theorem enter_eq_some {valued : Bool} {c : Char} {tokens : List Token} {next : Mode}
    (entered : Mode.enter valued c = some (tokens, next)) :
    (∀ token ∈ tokens, ∃ mark, token = .mark mark) ∧
      ((∃ waiting, next = .outside waiting) ∨ next = .hyphen ∨
        (isWordChar c = true ∧ next = .word valued [c]) ∨ c = '"' ∧ next = .quoted valued []) := by
  unfold Mode.enter at entered
  split at entered
  · cases entered
    exact ⟨by simp, Or.inl ⟨_, rfl⟩⟩
  · split at entered
    · rename_i wordChar
      cases entered
      exact ⟨by simp, Or.inr (Or.inr (Or.inl ⟨wordChar, rfl⟩))⟩
    · split at entered
      · rename_i quote
        cases entered
        exact ⟨by simp, Or.inr (Or.inr (Or.inr ⟨quote, rfl⟩))⟩
      · split at entered
        · cases entered
        · split at entered
          · cases entered
            exact ⟨by simp, Or.inl ⟨_, rfl⟩⟩
          · split at entered
            · cases entered
              exact ⟨by simp, Or.inr (Or.inl rfl)⟩
            · rcases Option.map_eq_some_iff.mp entered with ⟨mark, _, same⟩
              cases same
              exact ⟨by simp, Or.inl ⟨_, rfl⟩⟩

theorem wordToken?_eq_some {valued : Bool} {text : List Char} {token : Token}
    (found : wordToken? valued text = some token) :
    token = idToken valued text ∨ ∃ keyword, token = .keyword keyword := by
  unfold wordToken? at found
  split at found
  · split at found
    · cases found
    · cases found
      exact Or.inr ⟨_, rfl⟩
  · split at found
    · cases found
      exact Or.inl rfl
    · cases found

/-- The token of a word and what follows it. -/
theorem read_word_eq_some {valued : Bool} {text : List Char} {c : Char} {tokens : List Token}
    {next : Mode} (stepped : (Mode.word valued text).read c = some (tokens, next)) :
    (isWordChar c = true ∧ tokens = [] ∧ next = .word valued (text ++ [c])) ∨
      ∃ token marks, wordToken? valued text = some token ∧
        Mode.enter false c = some (marks, next) ∧ tokens = token :: marks := by
  rw [Mode.read] at stepped
  split at stepped
  · rename_i wordChar
    cases stepped
    exact Or.inl ⟨wordChar, rfl, rfl⟩
  · split at stepped
    · cases stepped
    · rename_i token found
      rcases Option.map_eq_some_iff.mp stepped with ⟨entered, followed, same⟩
      cases same
      exact Or.inr ⟨token, entered.1, found, followed, rfl⟩

/-! ## No ID ends in a backslash -/

/-- What has been read of an ID so far does not end in a backslash, but for the
one that waits. -/
def Mode.Sealed : Mode → Prop
  | .word _ text => Closed text
  | .quoted _ text => Closed text
  | _ => True

def Token.Sealed : Token → Prop
  | .id text => Closed text.toList
  | .value text => Closed text.toList
  | _ => True

theorem sealed_idToken {text : List Char} (closed : Closed text) (valued : Bool) :
    (idToken valued text).Sealed := by
  have same : Closed (String.ofList text).toList := by rwa [String.toList_ofList]
  cases valued <;> exact same

theorem closed_of_isWordChar {c : Char} (wordChar : isWordChar c = true) (text : List Char) :
    Closed (text ++ [c]) := by
  rw [closed_concat_iff]
  rintro rfl
  exact absurd wordChar (by decide)

theorem sealed_enter {valued : Bool} {c : Char} {tokens : List Token} {next : Mode}
    (entered : Mode.enter valued c = some (tokens, next)) :
    (∀ token ∈ tokens, token.Sealed) ∧ next.Sealed := by
  rcases enter_eq_some entered with ⟨marks, place⟩
  constructor
  · intro token member
    rcases marks token member with ⟨mark, rfl⟩
    trivial
  · rcases place with ⟨_, rfl⟩ | rfl | ⟨wordChar, rfl⟩ | ⟨_, rfl⟩
    · trivial
    · trivial
    · exact closed_of_isWordChar wordChar []
    · exact closed_nil

/-- One character keeps what was read sealed. -/
theorem sealed_read {mode next : Mode} {c : Char} {tokens : List Token} (held : mode.Sealed)
    (stepped : mode.read c = some (tokens, next)) :
    (∀ token ∈ tokens, token.Sealed) ∧ next.Sealed := by
  cases mode with
  | outside valued => exact sealed_enter stepped
  | word valued text =>
    rcases read_word_eq_some stepped with ⟨wordChar, rfl, rfl⟩ | ⟨token, marks, found, entered, rfl⟩
    · exact ⟨by simp, closed_of_isWordChar wordChar text⟩
    · have behind := sealed_enter entered
      refine ⟨fun other member => ?_, behind.2⟩
      rcases List.mem_cons.mp member with rfl | later
      · rcases wordToken?_eq_some found with rfl | ⟨keyword, rfl⟩
        · exact sealed_idToken held valued
        · trivial
      · exact behind.1 other later
  | hyphen =>
    rw [Mode.read] at stepped
    split at stepped
    · cases stepped
      exact ⟨by simp [Token.Sealed], trivial⟩
    · cases stepped
  | quoted valued text =>
    rw [Mode.read] at stepped
    split at stepped
    · cases stepped
      exact ⟨by simpa using sealed_idToken held valued, trivial⟩
    · split at stepped
      · cases stepped
        exact ⟨by simp, trivial⟩
      · rename_i backslash
        cases stepped
        exact ⟨by simp, closed_concat_iff.mpr backslash⟩
  | escaping valued text =>
    rw [Mode.read] at stepped
    split at stepped
    · cases stepped
      exact ⟨by simp, closed_concat_iff.mpr (by decide)⟩
    · split at stepped
      · cases stepped
        exact ⟨by simp, trivial⟩
      · rename_i backslash
        cases stepped
        refine ⟨by simp, ?_⟩
        have parts : text ++ ['\\', c] = (text ++ ['\\']) ++ [c] := by simp
        exact parts ▸ closed_concat_iff.mpr backslash

/-- No ID that is read from a text ends in a backslash. -/
theorem sealed_of_tokens? {text : String} {tokens : List Token}
    (read : tokens? text = some tokens) : ∀ token ∈ tokens, token.Sealed := by
  have along : Leads Mode.Sealed text.toList Token.Sealed Mode.Sealed :=
    leads_of_step fun c _ mode held tokens next stepped => sealed_read held stepped
  unfold tokens? at read
  split at read
  · rename_i found scanned
    cases read
    have held : (Mode.outside false).Sealed := trivial
    exact (along held scanned).1
  · cases read

end Dot
end FiniteAutomata
