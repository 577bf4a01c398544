import FiniteAutomata.Proofs.Specification.Refusal
import FiniteAutomata.Proofs.Specification.RoundTrip
import FiniteAutomata.Proofs.Text.Decimal
import FiniteAutomata.Proofs.Text.Quoted

namespace FiniteAutomata

open Text (Unbroken unbroken_around unbroken_toList_append)

/-!
# Faults in one line of words

The words of a fault show some texts in quoted form and others as they are.
Only the latter could break the words into lines.  When a specification is
refused, they are parts of the refused line or names that a line above has
declared, and no line of a text holds a line break; so a refused specification
is always reported on one line.
-/

/-! ## The texts in the words -/

/-- The texts that the words of a malformation show as they are. -/
def Malformation.shown : Malformation → List String
  | .longSymbol token => [token]
  | .stated message => [message]
  | _ => []

/-- The texts that the words of a fault show as they are. -/
def Fault.shown : Fault → List String
  | .stated message => [message]
  | .emptyName | .paddedName _ | .wideSymbol _ => []
  | .reservedInName _ token => [token]
  | .repeatedSymbol text | .repeatedState text | .missingState text | .missingTarget text => [text]
  | .conflictingMove state symbol existing requested => [state, symbol, existing, requested]
  | .malformed malformation => malformation.shown
  | .broken integrity => [integrity.message]

theorem Malformation.unbroken_message {malformation : Malformation}
    (unbroken : ∀ text ∈ malformation.shown, Unbroken text.toList) :
    Unbroken malformation.message.toList := by
  cases malformation with
  | longSymbol token =>
    exact unbroken_around (by decide +kernel) (unbroken token List.mem_cons_self)
      (by decide +kernel)
  | stated message => exact unbroken message List.mem_cons_self
  | _ => decide +kernel

/-- The words of a fault break only where a text does that they show as it
is. -/
theorem Fault.unbroken_message {fault : Fault}
    (unbroken : ∀ text ∈ fault.shown, Unbroken text.toList) : Unbroken fault.message.toList := by
  cases fault with
  | stated message => exact unbroken message List.mem_cons_self
  | emptyName => decide +kernel
  | paddedName name | wideSymbol name =>
    exact unbroken_around (by decide +kernel) (Text.unbroken_quoted name) (by decide +kernel)
  | reservedInName name token =>
    have front : Unbroken ("state name " ++ Text.quoted name ++ " must not contain '").toList :=
      unbroken_around (by decide +kernel) (Text.unbroken_quoted name) (by decide +kernel)
    exact unbroken_around front (unbroken token List.mem_cons_self) (by decide +kernel)
  | repeatedSymbol text | repeatedState text | missingState text | missingTarget text =>
    exact unbroken_around (by decide +kernel) (unbroken text List.mem_cons_self)
      (by decide +kernel)
  | conflictingMove state symbol existing requested =>
    have parts : ∀ text ∈ [state, symbol, existing, requested], Unbroken text.toList := unbroken
    simp only [List.mem_cons, List.not_mem_nil, or_false, forall_eq_or_imp, forall_eq] at parts
    rcases parts with ⟨ofState, ofSymbol, ofExisting, ofRequested⟩
    have first : Unbroken ("state '" ++ state ++ "' already moves to '").toList :=
      unbroken_around (by decide +kernel) ofState (by decide +kernel)
    have second : Unbroken
        ("state '" ++ state ++ "' already moves to '" ++ existing ++ "' on '").toList :=
      unbroken_around first ofExisting (by decide +kernel)
    have third : Unbroken ("state '" ++ state ++ "' already moves to '" ++ existing ++ "' on '" ++
        symbol ++ "', cannot also move to '").toList :=
      unbroken_around second ofSymbol (by decide +kernel)
    exact unbroken_around third ofRequested (by decide +kernel)
  | malformed malformation => exact malformation.unbroken_message unbroken
  | broken integrity => exact unbroken _ List.mem_cons_self

/-- The place of a fault brings no line breaks, since its line is quoted. -/
theorem LocatedFault.unbroken_message {located : LocatedFault}
    (words : Unbroken located.fault.message.toList) : Unbroken located.message.toList := by
  have line : Unbroken (lineText located.line).toList := by
    cases located.line with
    | none => decide +kernel
    | some line => exact Text.unbroken_quoted line
  unfold message
  cases located.number with
  | none => exact words
  | some number =>
    have front : Unbroken ("line " ++ toString number ++ ": ").toList :=
      unbroken_around (by decide +kernel) (Text.unbroken_toString number) (by decide +kernel)
    have middle : Unbroken
        ("line " ++ toString number ++ ": " ++ located.fault.message ++ " (").toList :=
      unbroken_around front words (by decide +kernel)
    exact unbroken_around middle line (by decide +kernel)

namespace Specification

open Text (trimmed)

/-! ## The texts of a refused line -/

theorem shown_of_checkName {name : String} {fault : Fault}
    (refused : checkName name = .error fault) : ∀ text ∈ fault.shown, Unbroken text.toList := by
  have tokens : ∀ token ∈ reservedTokens, Unbroken token.toList := by decide +kernel
  intro text among
  unfold checkName at refused
  split at refused
  · cases refused
    cases among
  · split at refused
    · cases refused
      cases among
    · split at refused
      · rename_i token found
        cases refused
        rw [List.mem_singleton.mp among]
        exact tokens token (List.mem_of_find?_eq_some found)
      · cases refused

/-- The parts of an edge are taken out of its line. -/
theorem Spells.unbroken {line : List Char} {edge : Edge} (spelled : Spells line edge)
    (unbroken : Unbroken line) :
    Unbroken edge.source.toList ∧ Unbroken edge.token.toList ∧ Unbroken edge.target.toList := by
  rcases spelled.written with
    ⟨before, behind, gap, after, rfl, _, _, _, _, source, token, target⟩
  have part : ∀ {text : List Char} {name : String}, trimmed text = name.toList →
      (∀ c ∈ text, c ∈ ('(' :: before ++ ',' :: behind ++ ')' :: gap) ++ '-' :: '>' :: after) →
        Unbroken name.toList := by
    intro text name cut inside c member
    rw [← cut] at member
    exact unbroken c (inside c (Text.mem_of_mem_trimmed member))
  refine ⟨part source ?_, part token ?_, part target ?_⟩
  all_goals
    intro c member
    simp [member]

theorem shown_of_ofLine {line : List Char} {malformation : Malformation}
    (fails : Edge.ofLine line = .error malformation) : malformation.shown = [] := by
  unfold Edge.ofLine at fails
  simp only [String.isEmpty_iff] at fails
  repeat' split at fails
  all_goals cases fails <;> rfl

theorem shown_of_symbol {truncate : Bool} {edge : Edge} {malformation : Malformation}
    (fails : edge.symbol truncate = .error malformation) :
    ∀ text ∈ malformation.shown, text = edge.token := by
  intro text among
  unfold Edge.symbol at fails
  split at fails
  · cases fails
    cases among
  · cases fails
  · split at fails
    · cases fails
    · cases fails
      exact List.mem_singleton.mp among

variable {truncate : Bool} {draft : Draft} {fault : Fault}

theorem unbroken_nameAt (names : ∀ name ∈ draft.stateNames, Unbroken name.toList) (index : Nat) :
    Unbroken (draft.nameAt index).toList := by
  unfold Draft.nameAt
  split
  · rename_i state held
    exact names _ (List.mem_map_of_mem (List.mem_of_getElem? held))
  · decide

/-- A move line is refused for parts of it, or for a state that is there. -/
theorem shown_of_move (distinct : draft.stateNames.Nodup)
    (names : ∀ name ∈ draft.stateNames, Unbroken name.toList) {rest : List Char}
    (unbroken : Unbroken ('(' :: rest))
    (refused : (Line.move ('(' :: rest)).apply truncate draft = .error fault) :
    ∀ text ∈ fault.shown, Unbroken text.toList := by
  simp only [Line.apply, readMove] at refused
  cases read : Edge.ofLine ('(' :: rest) with
  | error malformation =>
    rw [read] at refused
    cases refused
    simp [Fault.shown, shown_of_ofLine read]
  | ok edge =>
    rcases (Edge.spells_of_ofLine ⟨rest, rfl⟩ read).unbroken unbroken with ⟨source, token, target⟩
    rw [read] at refused
    cases used : edge.symbol truncate with
    | error malformation =>
      simp only [used] at refused
      cases refused
      intro text among
      rwa [shown_of_symbol used text among]
    | ok symbol =>
      have letter : Unbroken (String.singleton symbol).toList := by
        rw [String.toList_singleton, Text.unbroken_cons_iff]
        exact ⟨token symbol (List.mem_of_head? (Edge.head?_of_symbol used)), by decide⟩
      simp only [used, Draft.addMove_eq_error_iff distinct] at refused
      rcases refused with ⟨_, rfl⟩ | ⟨_, _, rfl⟩ | ⟨existing, _, rfl⟩
      · simpa [Fault.shown] using source
      · simpa [Fault.shown] using target
      · have held := unbroken_nameAt names existing
        simp only [Fault.shown, List.mem_cons, List.not_mem_nil, or_false, forall_eq_or_imp,
          forall_eq]
        exact ⟨source, letter, held, target⟩

/-- A line is refused for parts of it, or for a state that is there. -/
theorem shown_of_apply (distinct : draft.stateNames.Nodup)
    (names : ∀ name ∈ draft.stateNames, Unbroken name.toList) {line : List Char}
    (unbroken : Unbroken line)
    (refused : (Line.ofText line).apply truncate draft = .error fault) :
    ∀ text ∈ fault.shown, Unbroken text.toList := by
  cases form line with
  | alphabet value =>
    rw [ofText_alphabet] at refused
    cases refused
  | states value =>
    rw [ofText_states] at refused
    rcases addStates_eq_error_iff.mp refused with ⟨fit, name, others, listed, _, unfit⟩
    cases unfit with
    | unchecked unchecked => exact shown_of_checkName unchecked
    | repeated =>
      have among : name ∈ Specification.names value := by simp [listed]
      intro text shown c inside
      rw [List.mem_singleton.mp shown] at inside
      exact unbroken c (List.mem_append_right _ (mem_of_mem_names among inside))
  | start value =>
    rw [ofText_start] at refused
    rcases Draft.setStart_eq_error_iff.mp refused with ⟨_, rfl⟩
    intro text shown c inside
    rw [List.mem_singleton.mp shown, String.toList_ofList] at inside
    exact unbroken c (List.mem_append_right _ (Text.mem_of_mem_trimmed inside))
  | accepting value =>
    rw [ofText_accepting] at refused
    cases refused
  | move rest => exact shown_of_move distinct names unbroken refused
  | unknown plain =>
    rw [ofText_unknown plain] at refused
    cases refused

/-! ## Refused specifications -/

/-- A pass that is refused took the lines above the refused one. -/
theorem Recorded.exists_refused {above : List (List Char)}
    (recorded : Recorded truncate (above.map Line.ofText) draft) {number : Nat}
    {texts : List (List Char)} {located : LocatedFault}
    (fails : Specification.pass truncate draft number texts = .error located) :
    ∃ front line below next fault, texts = front ++ line :: below ∧
      Recorded truncate ((above ++ front).map Line.ofText) next ∧
      (Line.ofText line).apply truncate next = .error fault ∧
      located = ⟨fault, some ↑(number + front.length), some (String.ofList line)⟩ := by
  induction texts generalizing above draft number with
  | nil => cases fails
  | cons text rest inductionHypothesis =>
    rw [Specification.pass] at fails
    split at fails
    · rename_i next applied
      rcases inductionHypothesis (recorded.concat applied) fails with
        ⟨front, line, below, last, fault, rfl, taken, refused, rfl⟩
      refine ⟨text :: front, line, below, last, fault, rfl, ?_, refused, ?_⟩
      · simpa using taken
      · rw [List.length_cons, Nat.add_assoc, Nat.add_comm 1]
    · rename_i fault refused
      cases fails
      exact ⟨[], text, rest, draft, fault, rfl, by simpa using recorded, refused, rfl⟩

/-- Whatever its text holds, a refused specification is reported on one
line. -/
theorem unbroken_message_of_read {text : String} {located : LocatedFault}
    (refused : (read truncate text).result = .error located) :
    Unbroken located.message.toList := by
  have before : Recorded truncate (([] : List (List Char)).map Line.ofText) Draft.empty := .empty
  rcases before.exists_refused (read_eq_error_iff.mp refused) with
    ⟨above, line, below, draft, fault, whole, recorded, fails, rfl⟩
  have solid : ∀ piece ∈ above ++ line :: below, Unbroken piece := by
    rw [← whole]
    exact fun _ => unbroken_of_mem_strippedLines
  have names : ∀ name ∈ draft.stateNames, Unbroken name.toList := by
    intro name known
    rw [recorded.names, List.nil_append] at known
    exact unbroken_of_mem_declaredNames
      (fun piece held => solid piece (List.mem_append_left _ held)) known
  have shown := shown_of_apply recorded.proper.names_distinct names (solid line (by simp)) fails
  exact LocatedFault.unbroken_message (Fault.unbroken_message shown)

end Specification
end FiniteAutomata
