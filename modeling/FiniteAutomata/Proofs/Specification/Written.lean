import FiniteAutomata.Proofs.Specification.Heads
import FiniteAutomata.Proofs.Text.Lines
import FiniteAutomata.Specification.Writer

namespace FiniteAutomata
namespace Specification

/-!
# The lines of a written specification

What is written line by line is read line by line, provided that no name and no
symbol of a move breaks a line or gets lost at its end.  Only the alphabet may
be torn apart: a line break among its symbols ends the line, but what follows
begins with a comma or a brace and says nothing, so the symbols in front of the
first line break are read, and of these only those that are no marks.
-/

open Text (ArrowFree Unbroken isBlank isLineBreak lines trimmed)

/-! ## Lists in braces -/

theorem toList_braced (items : List String) :
    (Formal.braced items).toList = '\x7b' :: (Text.joined ", " items).toList ++ ['\x7d'] := by
  rw [Formal.braced, String.toList_append, String.toList_append]
  rfl

theorem comma_notMem {lead : List Char} (blank : ∀ c ∈ lead, isBlank c = true) {name : String}
    (fits : NameFits name) : ',' ∉ lead ++ name.toList := by
  rw [List.mem_append, not_or]
  exact ⟨fun member => absurd (blank ',' member) (by decide), fits.comma⟩

/-- Between the commas stand the names, with a blank in front of all but the
first. -/
theorem trimmed_pieces {first : String} {others : List String} {lead : List Char}
    (blank : ∀ c ∈ lead, isBlank c = true) (fits : ∀ name ∈ first :: others, NameFits name) :
    (Text.splitAt ',' (lead ++ first.toList ++
      others.flatMap fun name => ", ".toList ++ name.toList)).map trimmed =
        (first :: others).map String.toList := by
  induction others generalizing first lead with
  | nil =>
    have here := fits first List.mem_cons_self
    rw [List.flatMap_nil, List.append_nil, Text.splitAt_of_not_mem (comma_notMem blank here),
      List.map_singleton, Text.trimmed_append blank, here.trimmed, List.map_singleton]
  | cons second rest inductionHypothesis =>
    have here := fits first List.mem_cons_self
    have blankSpace : ∀ c ∈ [' '], isBlank c = true := List.forall_mem_singleton.mpr rfl
    have later := inductionHypothesis blankSpace fun name member =>
      fits name (List.mem_cons_of_mem _ member)
    have shape : lead ++ first.toList ++
        ((second :: rest).flatMap fun name => ", ".toList ++ name.toList) =
          (lead ++ first.toList) ++ ',' :: ([' '] ++ second.toList ++
            rest.flatMap fun name => ", ".toList ++ name.toList) := by
      rw [List.flatMap_cons]
      simp
    rw [shape, Text.splitAt_append (comma_notMem blank here), List.map_cons, later,
      Text.trimmed_append blank, here.trimmed]
    rfl

/-- A list of names in braces is read as it was written. -/
theorem names_braced {listed : List String} (fits : ∀ name ∈ listed, NameFits name) :
    names (Formal.braced listed).toList = listed := by
  have noBrace : ∀ name ∈ listed, ∀ c ∈ name.toList, isBrace c = false := by
    intro name member c inside
    have nameFits := fits name member
    simp only [isBrace, Bool.or_eq_false_iff, beq_eq_false_iff_ne, ne_eq]
    constructor
    · rintro rfl
      exact nameFits.opening inside
    · rintro rfl
      exact nameFits.closing inside
  have cleared : (Formal.braced listed).toList.filter (fun c => !isBrace c) =
      (Text.joined ", " listed).toList := by
    have plain : ∀ c ∈ (Text.joined ", " listed).toList, (!isBrace c) = true := by
      intro c member
      rcases Text.mem_of_mem_joined member with between | ⟨name, among, inside⟩
      · have apart : ∀ d ∈ ", ".toList, (!isBrace d) = true := List.all_eq_true.mp (by decide)
        exact apart c between
      · simp [noBrace name among c inside]
    rw [toList_braced, List.cons_append, List.filter_cons_of_neg (by decide), List.filter_append,
      List.filter_eq_self.mpr plain, List.filter_cons_of_neg (by decide), List.filter_nil,
      List.append_nil]
  have pieces : (Text.splitAt ',' (Text.joined ", " listed).toList).map trimmed =
      if listed = [] then [[]] else listed.map String.toList := by
    cases listed with
    | nil => rfl
    | cons first others =>
      rw [Text.toList_joined_cons, if_neg (List.cons_ne_nil _ _)]
      have nothing : ∀ c ∈ [], isBlank c = true := fun _ member => by cases member
      exact trimmed_pieces nothing fits
  rw [names, cleared, pieces]
  cases listed with
  | nil => rfl
  | cons first others =>
    have kept : ((first :: others).map String.toList).filter (fun name => !name.isEmpty) =
        (first :: others).map String.toList := by
      rw [List.filter_eq_self]
      intro text member
      rcases List.mem_map.mp member with ⟨name, listed, rfl⟩
      simpa using (fits name listed).nonempty
    rw [if_neg (List.cons_ne_nil _ _), kept, List.map_map]
    simp

/-! ## The alphabet -/

/-- The symbols that an alphabet line carries. -/
def carried (alphabet : List Char) : List Char :=
  (alphabet.takeWhile fun c => !isLineBreak c).filter fun c => !isListMark c

/-- The symbols behind the first one, and the closing brace. -/
def symbolTail (symbols : List Char) : List Char :=
  symbols.flatMap (fun c => [',', ' ', c]) ++ ['\x7d']

/-- A text begins with a comma or a closing brace. -/
def Interrupted (line : List Char) : Prop :=
  (∃ rest, line = ',' :: rest) ∨ ∃ rest, line = '\x7d' :: rest

/-- A line says nothing if it begins with a solid character that begins no
known line. -/
theorem ofText_foreign {mark : Char} (solid : isBlank mark = false)
    (foreign : ∀ head ∈ heads, ¬ head <+: [mark] ∧ ¬ [mark] <+: head) (rest : List Char) :
    Line.ofText (trimmed (mark :: rest)) = .other := by
  rcases Text.exists_trimmed_append (List.cons_ne_nil mark []) (Text.trimmed_singleton solid) rest
    with ⟨kept, whole⟩
  rw [← List.singleton_append, whole]
  apply ofText_unknown
  rintro ⟨head, known, begins⟩
  exact not_prefix_of_apart (foreign head known) kept begins

theorem ofText_interrupted {line : List Char} (interrupted : Interrupted line) :
    Line.ofText (trimmed line) = .other := by
  rcases interrupted with ⟨rest, rfl⟩ | ⟨rest, rfl⟩
  · exact ofText_foreign rfl (by decide) rest
  · exact ofText_foreign rfl (by decide) rest

/-- An alphabet line gives its symbols, whatever is trimmed at its end. -/
theorem ofText_trimmed_alphabet (value : List Char) :
    Line.ofText (trimmed (alphabetHead ++ value)) = .alphabet (symbols value) := by
  have present : alphabetHead ≠ [] := by decide
  have solid : trimmed alphabetHead = alphabetHead := by decide
  have blankMark : ∀ c, isBlank c = true → (!isListMark c) = false := by
    intro c blank
    simp [isListMark, blank]
  rcases Text.exists_trimmed_append present solid value with ⟨kept, whole⟩
  have same := Text.filter_trimmed blankMark (alphabetHead ++ value)
  rw [whole, List.filter_append, List.filter_append] at same
  rw [whole, ofText_alphabet, symbols, symbols, List.append_cancel_left same]

theorem symbols_append (first second : List Char) :
    symbols (first ++ second) = symbols first ++ symbols second :=
  List.filter_append first second

theorem carried_of_break {c : Char} (breaks : isLineBreak c = true) (rest : List Char) :
    carried (c :: rest) = [] := by
  rw [carried, List.takeWhile_cons, breaks]
  rfl

theorem carried_of_solid {c : Char} (solid : isLineBreak c = false) (rest : List Char) :
    carried (c :: rest) = symbols [c] ++ carried rest := by
  rw [carried, List.takeWhile_cons, solid]
  exact symbols_append [c] _

/-- A line break among the symbols ends the line; any other symbol stands on
it. -/
theorem lines_symbol {front first : List Char} {more : List (List Char)} (unbroken : Unbroken front)
    (c : Char) {others : List Char} (behind : lines (symbolTail others ++ ['\n']) = first :: more) :
    lines (front ++ c :: (symbolTail others ++ ['\n'])) =
      if isLineBreak c then front :: first :: more else (front ++ c :: first) :: more := by
  cases breaks : isLineBreak c with
  | true =>
    have notFeed : (symbolTail others ++ ['\n']).head? ≠ some '\n' := by
      cases others <;> simp [symbolTail]
    rw [Text.lines_append_break unbroken (Text.lines_cons_of_isLineBreak breaks notFeed), behind]
    rfl
  | false =>
    apply Text.lines_append unbroken
    rw [Text.lines_cons_of_solid breaks, behind]
    rfl

/-- The symbols behind the first, read as lines. -/
theorem lines_symbolTail (rest : List Char) : ∃ first more,
    lines (symbolTail rest ++ ['\n']) = first :: more ∧ symbols first = carried rest ∧
      Interrupted first ∧ ∀ line ∈ more, Interrupted line := by
  induction rest with
  | nil => exact ⟨['\x7d'], [], rfl, rfl, Or.inr ⟨[], rfl⟩, by simp⟩
  | cons c others inductionHypothesis =>
    rcases inductionHypothesis with ⟨first, more, behind, found, marked, interrupted⟩
    have shape : symbolTail (c :: others) ++ ['\n'] =
        [',', ' '] ++ c :: (symbolTail others ++ ['\n']) := by
      simp [symbolTail]
    have unbroken : Unbroken [',', ' '] := by decide
    rw [shape, lines_symbol unbroken c behind]
    cases breaks : isLineBreak c with
    | true =>
      rw [carried_of_break breaks]
      exact ⟨[',', ' '], first :: more, rfl, rfl, Or.inl ⟨[' '], rfl⟩,
        List.forall_mem_cons.mpr ⟨marked, interrupted⟩⟩
    | false =>
      refine ⟨[',', ' '] ++ ([c] ++ first), more, rfl, ?_, Or.inl ⟨_, rfl⟩, interrupted⟩
      rw [carried_of_solid breaks, symbols_append, symbols_append, found]
      rfl

/-- The lines that the alphabet is written on: the first gives the symbols that
it carries, and the others say nothing. -/
theorem lines_alphabet (alphabet : List Char) : ∃ first more,
    lines (alphabetHead ++ (Formal.braced (alphabet.map String.singleton)).toList ++ ['\n']) =
      first :: more ∧ Line.ofText (trimmed first) = .alphabet (carried alphabet) ∧
        ∀ line ∈ more, Line.ofText (trimmed line) = .other := by
  have unbroken : Unbroken (alphabetHead ++ ['\x7b']) := by decide
  have opened : ∀ value, Line.ofText (trimmed (alphabetHead ++ ['\x7b'] ++ value)) =
      .alphabet (symbols value) := by
    intro value
    rw [List.append_assoc, ofText_trimmed_alphabet]
    rfl
  rw [toList_braced]
  cases alphabet with
  | nil => exact ⟨alphabetHead ++ ['\x7b'] ++ ['\x7d'], [], by decide, opened _, by simp⟩
  | cons c others =>
    rcases lines_symbolTail others with ⟨first, more, behind, found, marked, interrupted⟩
    have shape : alphabetHead ++
        ('\x7b' :: (Text.joined ", " ((c :: others).map String.singleton)).toList ++ ['\x7d']) ++
          ['\n'] = alphabetHead ++ ['\x7b'] ++ c :: (symbolTail others ++ ['\n']) := by
      rw [List.map_cons, Text.toList_joined_cons, List.flatMap_map]
      simp [symbolTail]
    rw [shape, lines_symbol unbroken c behind]
    cases breaks : isLineBreak c with
    | true =>
      refine ⟨alphabetHead ++ ['\x7b'], first :: more, rfl, ?_, ?_⟩
      · rw [carried_of_break breaks]
        exact opened []
      · intro line member
        apply ofText_interrupted
        exact List.forall_mem_cons.mpr ⟨marked, interrupted⟩ line member
    | false =>
      refine ⟨alphabetHead ++ ['\x7b'] ++ ([c] ++ first), more, rfl, ?_, ?_⟩
      · rw [opened, carried_of_solid breaks, symbols_append, found]
      · exact fun line member => ofText_interrupted (interrupted line member)

/-! ## The other lines -/

/-- A written line is one line, and it is read as what it was written for. -/
structure ReadsAs (text : String) (line : Line) : Prop where
  unbroken : Unbroken text.toList
  said : Line.ofText (trimmed text.toList) = line

/-- Names and symbols of moves can be told from the text around them. -/
structure Writable (automaton : Automaton) : Prop where
  fits : ∀ name ∈ automaton.stateNames, NameFits name
  unbroken : ∀ name ∈ automaton.stateNames, Unbroken name.toList
  solid : ∀ move ∈ automaton.transitions, isBlank move.2.1 = false

theorem toList_ne_nil_of_fits {name : String} (fits : NameFits name) : name.toList ≠ [] := by
  simpa using fits.nonempty

theorem unbroken_braced {items : List String} (unbroken : ∀ name ∈ items, Unbroken name.toList) :
    Unbroken (Formal.braced items).toList := by
  intro c member
  rw [toList_braced, List.cons_append, List.mem_cons, List.mem_append, List.mem_singleton] at member
  rcases member with rfl | inside | rfl
  · decide
  · rcases Text.mem_of_mem_joined inside with between | ⟨name, among, within⟩
    · have apart : Unbroken ", ".toList := by decide
      exact apart c between
    · exact unbroken name among c within
  · decide

/-- A list of names behind a beginning is read as the names. -/
theorem readsAs_braced {head : String} {make : List String → Line} (present : head.toList ≠ [])
    (solid : trimmed head.toList = head.toList) (unbrokenHead : Unbroken head.toList)
    (said : ∀ value, Line.ofText (head.toList ++ value) = make (names value)) {listed : List String}
    (fits : ∀ name ∈ listed, NameFits name) (unbroken : ∀ name ∈ listed, Unbroken name.toList) :
    ReadsAs (head ++ Formal.braced listed) (make listed) := by
  constructor
  · rw [String.toList_append]
    exact Text.unbroken_append unbrokenHead (unbroken_braced unbroken)
  · have filled : (Formal.braced listed).toList ≠ [] := by simp [toList_braced]
    have solidBraces : trimmed (Formal.braced listed).toList = (Formal.braced listed).toList := by
      rw [toList_braced]
      exact Text.trimmed_between rfl rfl _
    rw [String.toList_append, Text.trimmed_append_eq_self present filled solid solidBraces, said,
      names_braced fits]

theorem readsAs_start {name : String} (fits : NameFits name) (unbroken : Unbroken name.toList) :
    ReadsAs ("start_state=" ++ name) (.start name) := by
  have whole : ("start_state=" ++ name).toList = startHead ++ name.toList := String.toList_append
  have solid : trimmed startHead = startHead := by decide
  constructor
  · rw [whole]
    exact Text.unbroken_append (by decide) unbroken
  · rw [whole, Text.trimmed_append_eq_self (by decide) (toList_ne_nil_of_fits fits) solid
      fits.trimmed, ofText_start, fits.trimmed, String.ofList_toList]

theorem toList_moveLine (move : String × Char × String) : (moveLine move).toList =
    '(' :: move.1.toList ++ ',' :: [' ', move.2.1] ++ ')' :: [] ++
      '-' :: '>' :: move.2.2.toList := by
  simp [moveLine]

/-- The line of a move denotes it. -/
theorem denotes_moveLine {move : String × Char × String} (fitsSource : NameFits move.1)
    (solid : isBlank move.2.1 = false) (fitsTarget : NameFits move.2.2) :
    Denotes (moveLine move).toList move where
  source_nonempty := fitsSource.nonempty
  token_nonempty := by simp
  target_nonempty := fitsTarget.nonempty
  written := by
    refine ⟨move.1.toList, [' ', move.2.1], [], move.2.2.toList, toList_moveLine move, ?_,
      fitsTarget.arrow, fitsSource.comma, by simp, fitsSource.trimmed, ?_, fitsTarget.trimmed⟩
    · rw [List.append_assoc]
      apply Text.arrowFree_append
      · rw [Text.arrowFree_cons_iff]
        exact ⟨fun _ hyphen => absurd hyphen (by decide), fitsSource.arrow⟩
      · decide
      · simp [Text.arrowFree_cons_iff, Text.arrowFree_nil]
    · calc trimmed [' ', move.2.1]
          = trimmed ([' '] ++ [move.2.1]) := rfl
        _ = trimmed [move.2.1] := Text.trimmed_append (List.forall_mem_singleton.mpr rfl)
        _ = (String.singleton move.2.1).toList := by
          rw [Text.trimmed_singleton solid, String.toList_singleton]

theorem readsAs_move {move : String × Char × String} (unbrokenSource : Unbroken move.1.toList)
    (solid : isBlank move.2.1 = false) (fitsTarget : NameFits move.2.2)
    (unbrokenTarget : Unbroken move.2.2.toList) :
    ReadsAs (moveLine move) (.move (moveLine move).toList) := by
  have whole : (moveLine move).toList =
      '(' :: (move.1.toList ++ [',', ' ', move.2.1, ')', '-']) ++ ['>'] ++ move.2.2.toList := by
    simp [moveLine]
  constructor
  · have unbrokenSymbol : Unbroken [move.2.1] :=
      List.forall_mem_singleton.mpr (Text.isLineBreak_eq_false solid)
    have unbrokenMiddle : Unbroken ([',', ' '] ++ [move.2.1] ++ [')', '-']) :=
      Text.unbroken_append (Text.unbroken_append (by decide) unbrokenSymbol) (by decide)
    have unbrokenFront : Unbroken (['('] ++ (move.1.toList ++ [',', ' ', move.2.1, ')', '-'])) :=
      Text.unbroken_append (by decide) (Text.unbroken_append unbrokenSource unbrokenMiddle)
    rw [whole]
    exact Text.unbroken_append (Text.unbroken_append unbrokenFront (by decide)) unbrokenTarget
  · have opening : isBlank '(' = false := rfl
    have point : isBlank '>' = false := rfl
    have solidFront := Text.trimmed_between opening point
      (move.1.toList ++ [',', ' ', move.2.1, ')', '-'])
    rw [whole, Text.trimmed_append_eq_self (by simp) (toList_ne_nil_of_fits fitsTarget) solidFront
      fitsTarget.trimmed]
    rfl

/-- What the lines behind the alphabet say. -/
def spokenLines (automaton : Automaton) : List Line :=
  [.states automaton.stateNames] ++
    (automaton.startState?.toList.map fun state => .start state.name) ++
    [.accepting (automaton.acceptingStates.map State.name)] ++
    automaton.transitions.map fun move => .move (moveLine move).toList

/-- What all lines say, if the alphabet goes on over some lines more. -/
def saidLines (automaton : Automaton) (silent : Nat) : List Line :=
  .alphabet (carried automaton.alphabet) :: List.replicate silent .other ++ spokenLines automaton

/-- Behind the alphabet every line is read as it was written. -/
theorem readsAs_spokenLines {automaton : Automaton} (writable : Writable automaton) :
    List.Forall₂ ReadsAs (writtenLines automaton).tail (spokenLines automaton) := by
  have within : ∀ state ∈ automaton.states, state.name ∈ automaton.stateNames := fun _ =>
    Automaton.name_mem_stateNames
  have states : ReadsAs ("state=" ++ Formal.states automaton) (.states automaton.stateNames) :=
    readsAs_braced (by decide) (by decide) (by decide) ofText_states writable.fits writable.unbroken
  have acceptingNames : ∀ name ∈ automaton.acceptingStates.map State.name,
      name ∈ automaton.stateNames := by
    intro name member
    rcases List.mem_map.mp member with ⟨state, held, rfl⟩
    exact within state (List.mem_filter.mp held).1
  have accepting : ReadsAs ("F=" ++ Formal.accepting automaton)
      (.accepting (automaton.acceptingStates.map State.name)) :=
    readsAs_braced (by decide) (by decide) (by decide) ofText_accepting
      (fun name member => writable.fits name (acceptingNames name member))
      (fun name member => writable.unbroken name (acceptingNames name member))
  have moves : List.Forall₂ ReadsAs (automaton.transitions.map moveLine)
      (automaton.transitions.map fun move => .move (moveLine move).toList) := by
    rw [List.forall₂_map_left_iff, List.forall₂_map_right_iff, List.forall₂_same]
    intro move member
    have names := Automaton.names_of_mem_transitions member
    exact readsAs_move (writable.unbroken _ names.1)
      (writable.solid move member) (writable.fits _ names.2) (writable.unbroken _ names.2)
  unfold writtenLines spokenLines
  cases found : automaton.startState? with
  | none => exact .cons states (.cons accepting moves)
  | some state =>
    have known := within state (Automaton.mem_states_of_startState? found)
    have start : ReadsAs ("start_state=" ++ state.name) (.start state.name) :=
      readsAs_start (writable.fits _ known) (writable.unbroken _ known)
    exact .cons states (.cons start (.cons accepting moves))

/-- Lines that are read as they were written are found again in the text that
they make. -/
theorem lines_readsAs {texts : List String} {given : List Line}
    (read : List.Forall₂ ReadsAs texts given) :
    (lines (texts.flatMap fun text => text.toList ++ ['\n'])).map
      (fun line => Line.ofText (trimmed line)) = given := by
  induction read with
  | nil => rfl
  | cons here _ inductionHypothesis =>
    rw [List.flatMap_cons, List.append_assoc, List.singleton_append,
      Text.lines_append_break here.unbroken (Text.lines_feed _), List.map_cons, here.said,
      inductionHypothesis]

theorem toList_write (automaton : Automaton) : (write automaton).toList =
    alphabetHead ++ (Formal.alphabet automaton).toList ++
      '\n' :: (writtenLines automaton).tail.flatMap fun text => text.toList ++ ['\n'] := by
  have front : writtenLines automaton =
      ("alphabet=" ++ Formal.alphabet automaton) :: (writtenLines automaton).tail := rfl
  rw [write, front, Text.toList_joined_feed, List.flatMap_cons, String.toList_append, ← front,
    List.append_assoc]
  rfl

/-- A written specification says its alphabet, perhaps nothing for some lines,
and then everything else. -/
theorem lines_write {automaton : Automaton} (writable : Writable automaton) : ∃ silent,
    (strippedLines (write automaton)).map Line.ofText = saidLines automaton silent := by
  rcases lines_alphabet automaton.alphabet with ⟨first, more, torn, alphabet, quiet⟩
  have front : lines (alphabetHead ++ (Formal.alphabet automaton).toList ++ ['\n']) =
      first :: more := torn
  have silent : more.map (fun line => Line.ofText (trimmed line)) =
      List.replicate more.length .other := by
    rw [List.map_congr_left quiet, List.map_const']
  refine ⟨more.length, ?_⟩
  rw [strippedLines, List.map_map, toList_write, Text.lines_append_feed, front, List.map_append,
    List.map_cons, saidLines, ← lines_readsAs (readsAs_spokenLines writable), ← alphabet, ← silent]
  rfl

end Specification
end FiniteAutomata
