import FiniteAutomata.Proofs.Specification.Meaning

namespace FiniteAutomata

open Log (Entry Event Level Reported)

/-!
# What a reading reports

The entries of a reading are said here of its stripped lines alone, with their
names and all their fields.  Every move line that is reached and can be taken
apart warns of a cut token and of a symbol that no line above lists, also if the
move is refused in the end; every move line that is passed adds one entry.
Behind the lines there is one error for the refused line, or a note of a missing
start and the counts of the automaton.

The step is one line behind lines that a draft has recorded; the run is by
induction on the lines.
-/

/-- The entries that a log is given of what is reported. -/
def Log.Reported.entries {ε α : Type} (reported : Reported ε α) : List Entry :=
  reported.events.map Event.entry

namespace Specification

open Text (trimmed)

/-! ## The entries -/

/-- The warning of a token of which only the first character is used. -/
def cutEntry (token : String) (used : Char) : Entry :=
  ⟨.warning, "dfa_core.spec_parser", "transition_symbol_truncated",
    [("symbol", .string token), ("used", .string (String.singleton used))]⟩

/-- The warning of a symbol that is not in the alphabet. -/
def strayEntry (line : Nat) (symbol : Char) : Entry :=
  ⟨.warning, "dfa_core.spec_parser", "transition_symbol_outside_alphabet",
    [("line_no", .int line), ("symbol", .string (String.singleton symbol))]⟩

/-- The note of a move that was given to the draft. -/
def additionEntry (source : String) (symbol : Char) (target : String) : Entry :=
  ⟨.debug, "dfa_core.builder", "transition_added",
    [("state", .string source), ("symbol", .string (String.singleton symbol)),
      ("next_state", .string target)]⟩

/-- The error of a refused line. -/
def failureEntry (line : Nat) (message : String) : Entry :=
  ⟨.error, "dfa_core.spec_parser", "spec_parse_failed",
    [("line_no", .int line), ("error", .string message)]⟩

/-- The note of an automaton without a start. -/
def startlessEntry (states : Nat) : Entry :=
  ⟨.info, "dfa_core.spec_parser", "spec_without_start_state", [("states", .int states)]⟩

/-- The counts of an automaton that was read. -/
def countsEntry (states alphabet accepting : Nat) : Entry :=
  ⟨.info, "dfa_core.spec_parser", "spec_parsed",
    [("states", .int states), ("alphabet", .int alphabet), ("accept_states", .int accepting)]⟩

/-! ## Entries by kind -/

/-- The entries of one level. -/
def ofLevel (level : Level) (entries : List Entry) : List Entry :=
  entries.filter fun entry => entry.level = level

/-- The entries of moves that were given to the draft. -/
def additions (entries : List Entry) : List Entry :=
  entries.filter fun entry => entry.event = "transition_added"

theorem ofLevel_append (level : Level) (first second : List Entry) :
    ofLevel level (first ++ second) = ofLevel level first ++ ofLevel level second :=
  List.filter_append ..

theorem additions_append (first second : List Entry) :
    additions (first ++ second) = additions first ++ additions second :=
  List.filter_append ..

/-! ## What lines have to report -/

/-- A line spells an edge whose token gives a symbol, whole or cut. -/
structure Uses (truncate : Bool) (line : List Char) (edge : Edge) (symbol : Char) : Prop where
  spelled : Spells line edge
  token : ∃ more, edge.token.toList = symbol :: more ∧ (more = [] ∨ truncate = true)

/-- The warning of a token that is more than its symbol. -/
def cutWarnings (edge : Edge) (symbol : Char) : List Entry :=
  if edge.token = String.singleton symbol then [] else [cutEntry edge.token symbol]

/-- The warning of a symbol that none of the lines above lists. -/
def strayWarnings (above : List (List Char)) (symbol : Char) : List Entry :=
  if symbol ∈ (valuesOf alphabetHead above).flatMap symbols then []
  else [strayEntry (above.length + 1) symbol]

/-- The warnings of a line behind the lines above it. -/
inductive Warns (truncate : Bool) (above : List (List Char)) (line : List Char) :
    List Entry → Prop
  | used {edge : Edge} {symbol : Char} (uses : Uses truncate line edge symbol) :
      Warns truncate above line (cutWarnings edge symbol ++ strayWarnings above symbol)
  | unused (nothing : ∀ edge symbol, ¬ Uses truncate line edge symbol) :
      Warns truncate above line []

/-- The warnings of lines, each behind all lines above it. -/
inductive WarnsAll (truncate : Bool) : List (List Char) → List (List Char) → List Entry → Prop
  | nil (above : List (List Char)) : WarnsAll truncate above [] []
  | cons {above rest : List (List Char)} {line : List Char} {here later : List Entry}
      (first : Warns truncate above line here)
      (others : WarnsAll truncate (above ++ [line]) rest later) :
      WarnsAll truncate above (line :: rest) (here ++ later)

/-- The entry of a move that a line describes. -/
def Adds (truncate : Bool) (line : List Char) (entry : Entry) : Prop :=
  ∃ edge symbol, Uses truncate line edge symbol ∧
    entry = additionEntry edge.source symbol edge.target

/-- Entries account for the lines that were reached behind those above them, and
for the lines that were taken. -/
structure Accounts (truncate : Bool) (above taken reached : List (List Char))
    (entries : List Entry) : Prop where
  warnings : WarnsAll truncate above reached (ofLevel .warning entries)
  moves : List.Forall₂ (Adds truncate) (moveLines taken) (additions entries)

/-! ## Lines that are taken apart -/

theorem uses_iff {truncate : Bool} {rest : List Char} {edge : Edge} {symbol : Char} :
    Uses truncate ('(' :: rest) edge symbol ↔
      Edge.ofLine ('(' :: rest) = .ok edge ∧ edge.symbol truncate = .ok symbol := by
  rw [Edge.ofLine_eq_ok_iff ⟨rest, rfl⟩, Edge.symbol_eq_ok_iff]
  exact ⟨fun uses => ⟨uses.spelled, uses.token⟩, fun parts => ⟨parts.1, parts.2⟩⟩

/-- Lines that open in another way give no symbol. -/
theorem not_uses {truncate : Bool} {line : List Char} (closed : ¬ ['('] <+: line) (edge : Edge)
    (symbol : Char) : ¬ Uses truncate line edge symbol := by
  intro uses
  rcases uses.spelled.opens with ⟨rest, rfl⟩
  exact closed ⟨rest, rfl⟩

/-- A token is long if it is more than its symbol. -/
theorem Edge.isLong_iff {edge : Edge} {symbol : Char} {more : List Char}
    (token : edge.token.toList = symbol :: more) :
    edge.isLong = true ↔ edge.token ≠ String.singleton symbol := by
  rw [Edge.isLong, token, ne_eq, ← String.toList_inj, token, String.toList_singleton]
  simp

/-! ## The report of one line -/

/-- The entries of lines, without what only the reading as a whole can say. -/
def Plain (entries : List Entry) : Prop :=
  ∀ entry ∈ entries, entry.level = .debug ∨ entry.level = .warning

theorem Plain.append {first second : List Entry} (plain : Plain first) (later : Plain second) :
    Plain (first ++ second) :=
  List.forall_mem_append.mpr ⟨plain, later⟩

/-- What a line reports behind the lines above it: its warnings, and its move
unless it is refused.  Errors and notes are left to the reading as a whole. -/
structure Reports (truncate : Bool) (above : List (List Char)) (line : List Char)
    (reported : Reported Fault Draft) : Prop where
  warnings : Warns truncate above line (ofLevel .warning reported.entries)
  added : ∀ next, reported.result = .ok next →
    List.Forall₂ (Adds truncate) (moveLines [line]) (additions reported.entries)
  refused : ∀ fault, reported.result = .error fault → additions reported.entries = []
  plain : Plain reported.entries

variable {truncate : Bool} {above : List (List Char)} {line : List Char} {draft : Draft}

/-- A line that is no move reports nothing that counts. -/
theorem reports_of_closed {reported : Reported Fault Draft} (closed : ¬ ['('] <+: line)
    (quiet : ∀ entry ∈ reported.entries, entry.level = .debug ∧ entry.event ≠ "transition_added") :
    Reports truncate above line reported := by
  have noWarnings : ofLevel .warning reported.entries = [] := by
    rw [ofLevel, List.filter_eq_nil_iff]
    intro entry member warns
    rw [(quiet entry member).1] at warns
    cases of_decide_eq_true warns
  have noMoves : additions reported.entries = [] := by
    rw [additions, List.filter_eq_nil_iff]
    intro entry member
    simp [(quiet entry member).2]
  have noMoveLines : moveLines [line] = [] := by simp [moveLines, closed]
  exact {
    warnings := by
      rw [noWarnings]
      exact .unused (not_uses closed)
    added := by
      intro next _
      rw [noMoves, noMoveLines]
      exact .nil
    refused := fun _ _ => noMoves
    plain := fun entry member => .inl (quiet entry member).1 }

/-- A line that cannot be taken apart reports nothing. -/
theorem reports_malformed {fault : Fault}
    (nothing : ∀ edge symbol, ¬ Uses truncate line edge symbol) :
    Reports truncate above line ⟨[], .error fault⟩ where
  warnings := .unused nothing
  added := by rintro next ⟨⟩
  refused := fun _ _ => rfl
  plain := by rintro entry ⟨⟩

/-- The alphabet of the draft is what the lines above list, so the warnings of a
move line are those that are due. -/
theorem warnings_of_uses (recorded : Recorded truncate (above.map Line.ofText) draft) {edge : Edge}
    {symbol : Char} (uses : Uses truncate line edge symbol) :
    ((if edge.isLong then [Event.symbolTruncated edge.token symbol] else []) ++
        (if symbol ∈ draft.alphabet then []
          else [Event.symbolOutsideAlphabet (above.length + 1) symbol])).map Event.entry =
      cutWarnings edge symbol ++ strayWarnings above symbol := by
  rcases uses.token with ⟨more, token, _⟩
  have listed : symbol ∈ draft.alphabet ↔
      symbol ∈ (valuesOf alphabetHead above).flatMap symbols := by
    rw [recorded.alphabet, List.mem_eraseDups, listedSymbols_ofText]
  rw [List.map_append, apply_ite (List.map Event.entry), apply_ite (List.map Event.entry)]
  simp only [cutWarnings, strayWarnings, Edge.isLong_iff token, listed, ne_eq, ite_not]
  rfl

theorem kind_of_warnings {edge : Edge} {symbol : Char} :
    ∀ entry ∈ cutWarnings edge symbol ++ strayWarnings above symbol,
      entry.level = .warning ∧ entry.event ≠ "transition_added" := by
  intro entry member
  unfold cutWarnings strayWarnings at member
  rcases List.mem_append.mp member with cut | stray
  · split at cut
    · cases cut
    · rw [List.mem_singleton.mp cut]
      exact ⟨rfl, by simp [cutEntry]⟩
  · split at stray
    · cases stray
    · rw [List.mem_singleton.mp stray]
      exact ⟨rfl, by simp [strayEntry]⟩

/-- The warnings of a move line come before its move is tried, so they stand
whether it is refused or not. -/
theorem reports_of_uses {edge : Edge} {symbol : Char} (uses : Uses truncate line edge symbol)
    {warnings : List Event}
    (due : warnings.map Event.entry = cutWarnings edge symbol ++ strayWarnings above symbol)
    (result : Except Fault Draft) :
    Reports truncate above line
      (match result with
        | .ok next => ⟨warnings ++ [.moveAdded edge.source symbol edge.target], .ok next⟩
        | .error fault => ⟨warnings, .error fault⟩) := by
  have kinds : ∀ entry ∈ warnings.map Event.entry,
      entry.level = .warning ∧ entry.event ≠ "transition_added" := due ▸ kind_of_warnings
  have kept : ofLevel .warning (warnings.map Event.entry) = warnings.map Event.entry := by
    rw [ofLevel, List.filter_eq_self]
    exact fun entry member => decide_eq_true (kinds entry member).1
  have noMoves : additions (warnings.map Event.entry) = [] := by
    rw [additions, List.filter_eq_nil_iff]
    intro entry member
    simp [(kinds entry member).2]
  have plain : Plain (warnings.map Event.entry) :=
    fun entry member => .inr (kinds entry member).1
  have warns : Warns truncate above line (warnings.map Event.entry) := due ▸ .used uses
  cases result with
  | error fault => exact {
      warnings := by rwa [Reported.entries, kept]
      added := by rintro next ⟨⟩
      refused := fun _ _ => noMoves
      plain := plain }
  | ok next =>
    rcases uses.spelled.opens with ⟨rest, rfl⟩
    have entries : (⟨warnings ++ [.moveAdded edge.source symbol edge.target], .ok next⟩ :
        Reported Fault Draft).entries =
          warnings.map Event.entry ++ [additionEntry edge.source symbol edge.target] :=
      List.map_append
    exact {
      warnings := by
        rw [entries, ofLevel_append, kept]
        simpa [ofLevel, additionEntry] using warns
      added := by
        intro _ _
        rw [entries, additions_append, noMoves]
        exact .cons ⟨edge, symbol, uses, rfl⟩ .nil
      refused := by rintro fault ⟨⟩
      plain := by
        rw [entries]
        exact plain.append (List.forall_mem_singleton.mpr (.inl rfl)) }

theorem reports_addEdge {rest : List Char}
    (recorded : Recorded truncate (above.map Line.ofText) draft) :
    Reports truncate above ('(' :: rest)
      (addEdge truncate (above.length + 1) ('(' :: rest) draft) := by
  unfold addEdge
  cases read : Edge.ofLine ('(' :: rest) with
  | error malformation =>
    apply reports_malformed
    intro edge symbol uses
    cases read.symm.trans (uses_iff.mp uses).1
  | ok edge =>
    dsimp only
    cases used : edge.symbol truncate with
    | error malformation =>
      apply reports_malformed
      intro other symbol uses
      rcases uses_iff.mp uses with ⟨found, taken⟩
      cases read.symm.trans found
      cases used.symm.trans taken
    | ok symbol =>
      have uses := uses_iff.mpr ⟨read, used⟩
      exact reports_of_uses uses (warnings_of_uses recorded uses) _

/-- Every line reports what is due behind the lines that the draft has
recorded. -/
theorem reports_readLine (recorded : Recorded truncate (above.map Line.ofText) draft)
    (line : List Char) :
    Reports truncate above line (readLine truncate (above.length + 1) line draft) := by
  unfold readLine
  cases form line with
  | move rest => exact reports_addEdge recorded
  | alphabet value =>
    rw [ofText_alphabet]
    exact reports_of_closed (not_prefix_of_apart (by decide) value) (by rintro entry ⟨⟩)
  | states value =>
    rw [ofText_states]
    exact reports_of_closed (not_prefix_of_apart (by decide) value) (by rintro entry ⟨⟩)
  | start value =>
    rw [ofText_start]
    exact reports_of_closed (not_prefix_of_apart (by decide) value) (by rintro entry ⟨⟩)
  | accepting value =>
    rw [ofText_accepting]
    apply reports_of_closed (not_prefix_of_apart (by decide) value)
    intro entry member
    rw [Reported.entries, apply_ite (List.map Event.entry)] at member
    split at member
    · cases member
    · rw [List.mem_singleton.mp member]
      exact ⟨rfl, by simp [Event.entry, Event.name]⟩
  | unknown plain =>
    rw [ofText_unknown plain]
    apply reports_of_closed fun opens => plain ⟨['('], by decide, opens⟩
    intro entry member
    rw [List.mem_singleton.mp member]
    exact ⟨rfl, by simp [Event.entry, Event.name]⟩

/-! ## The reports of all lines -/

theorem Accounts.cons {taken reached : List (List Char)} {here later : List Entry}
    (warns : Warns truncate above line (ofLevel .warning here))
    (added : List.Forall₂ (Adds truncate) (moveLines [line]) (additions here))
    (others : Accounts truncate (above ++ [line]) taken reached later) :
    Accounts truncate above (line :: taken) (line :: reached) (here ++ later) where
  warnings := by
    rw [ofLevel_append]
    exact .cons warns others.warnings
  moves := by
    have split : moveLines (line :: taken) = moveLines [line] ++ moveLines taken :=
      List.filter_append [line] taken
    rw [additions_append, split]
    exact List.rel_append added others.moves

/-- The account of lines that are passed behind those above them. -/
def Passed (truncate : Bool) (above lines : List (List Char)) (entries : List Entry) : Prop :=
  Accounts truncate above lines lines entries ∧ Plain entries

/-- The account of lines that are refused behind those above them: the refused
one is reached and not taken, and its fault is told behind all else. -/
def Stopped (truncate : Bool) (above lines : List (List Char)) (entries : List Entry)
    (located : LocatedFault) : Prop :=
  ∃ passed line below before, lines = passed ++ line :: below ∧
    located.number = some ↑((above ++ passed).length + 1) ∧
    located.line = some (String.ofList line) ∧
    entries = before ++ [failureEntry ((above ++ passed).length + 1) located.fault.message] ∧
    Accounts truncate above passed (passed ++ [line]) before ∧ Plain before

theorem Passed.cons {lines : List (List Char)} {here : List Event} {later : List Entry}
    {next : Draft} (reports : Reports truncate above line ⟨here, .ok next⟩)
    (passed : Passed truncate (above ++ [line]) lines later) :
    Passed truncate above (line :: lines) (here.map Event.entry ++ later) :=
  ⟨.cons reports.warnings (reports.added next rfl) passed.1, reports.plain.append passed.2⟩

theorem Stopped.cons {lines : List (List Char)} {here : List Event} {later : List Entry}
    {next : Draft} {located : LocatedFault} (reports : Reports truncate above line ⟨here, .ok next⟩)
    (stopped : Stopped truncate (above ++ [line]) lines later located) :
    Stopped truncate above (line :: lines) (here.map Event.entry ++ later) located := by
  rcases stopped with ⟨passed, bad, below, before, rfl, number, text, rfl, accounts, plain⟩
  rw [List.append_assoc, List.singleton_append] at number ⊢
  exact ⟨line :: passed, bad, below, here.map Event.entry ++ before, rfl, number, text, by simp,
    .cons reports.warnings (reports.added next rfl) accounts, reports.plain.append plain⟩

/-- What lines report is due, up to their end or to the first that is
refused. -/
def Due (truncate : Bool) (above lines : List (List Char))
    (reading : Reported LocatedFault Draft) : Prop :=
  (∀ final, reading.result = .ok final → Passed truncate above lines reading.entries) ∧
    ∀ located, reading.result = .error located →
      Stopped truncate above lines reading.entries located

theorem Due.cons {lines : List (List Char)} {here : List Event} {next : Draft}
    {later : Reported LocatedFault Draft} (reports : Reports truncate above line ⟨here, .ok next⟩)
    (due : Due truncate (above ++ [line]) lines later) :
    Due truncate above (line :: lines) ⟨here ++ later.events, later.result⟩ := by
  have entries : (⟨here ++ later.events, later.result⟩ : Reported LocatedFault Draft).entries =
      here.map Event.entry ++ later.entries :=
    List.map_append
  constructor
  · intro final ends
    rw [entries]
    exact (due.1 final ends).cons reports
  · intro located fails
    rw [entries]
    exact (due.2 located fails).cons reports

theorem due_refused {lines : List (List Char)} {here : List Event} {fault : Fault}
    (reports : Reports truncate above line ⟨here, .error fault⟩) :
    Due truncate above (line :: lines)
      ⟨here ++ [.readingFailed (above.length + 1) fault.message],
        .error ((LocatedFault.ofFault fault).atLine ↑(above.length + 1) (String.ofList line))⟩ := by
  constructor
  · rintro final ⟨⟩
  · rintro located ⟨⟩
    have warns : Warns truncate above line (ofLevel .warning (here.map Event.entry)) :=
      reports.warnings
    have noMoves : additions (here.map Event.entry) = [] := reports.refused fault rfl
    have accounts : Accounts truncate above [] [line] (here.map Event.entry) := by
      constructor
      · simpa using WarnsAll.cons warns (.nil _)
      · rw [noMoves]
        exact .nil
    refine ⟨[], line, lines, here.map Event.entry, rfl, ?_, rfl, ?_, accounts, reports.plain⟩
    · rw [List.append_nil]
      rfl
    · rw [List.append_nil, Reported.entries, List.map_append]
      rfl

/-- The draft has recorded the lines so far, so each line reports what is due
behind them. -/
theorem due_readLines (recorded : Recorded truncate (above.map Line.ofText) draft)
    (raws : List (List Char)) :
    Due truncate above (raws.map trimmed) (readLines truncate draft (above.length + 1) raws) := by
  induction raws generalizing above draft with
  | nil => exact ⟨fun _ _ => ⟨⟨.nil above, .nil⟩, by rintro entry ⟨⟩⟩, by rintro located ⟨⟩⟩
  | cons raw rest inductionHypothesis =>
    have later : ∀ {next}, (Line.ofText (trimmed raw)).apply truncate draft = .ok next →
        Due truncate (above ++ [trimmed raw]) (rest.map trimmed)
          (readLines truncate next (above.length + 1 + 1) rest) := by
      intro next applied
      simpa using inductionHypothesis (recorded.concat applied)
    rw [readLines, List.map_cons]
    by_cases blank : trimmed raw = []
    · -- a blank line is a line of its own that says and reports nothing
      have silent : Reports truncate above (trimmed raw) ⟨[], .ok draft⟩ :=
        reports_of_closed (by simp [blank]) (by rintro entry ⟨⟩)
      have kept : (Line.ofText (trimmed raw)).apply truncate draft = .ok draft := by
        rw [blank, ofText_nil]
        rfl
      simpa [blank] using (later kept).cons silent
    · have reports := reports_readLine recorded (trimmed raw)
      have applied := readLine_result truncate (above.length + 1) (trimmed raw) draft
      simp only [List.isEmpty_iff, if_neg blank]
      cases reported : readLine truncate (above.length + 1) (trimmed raw) draft with
      | mk events result =>
        rw [reported] at reports applied
        cases result with
        | error fault => exact due_refused reports
        | ok next => exact (later applied.symm).cons reports

/-! ## The report of a reading -/

theorem Plain.ofLevel_eq_nil {entries : List Entry} (plain : Plain entries) {level : Level}
    (notDebug : level ≠ .debug) (notWarning : level ≠ .warning) : ofLevel level entries = [] := by
  rw [ofLevel, List.filter_eq_nil_iff]
  intro entry member same
  rcases plain entry member with debug | warning
  · exact notDebug ((of_decide_eq_true same).symm.trans debug)
  · exact notWarning ((of_decide_eq_true same).symm.trans warning)

theorem Accounts.append {taken reached : List (List Char)} {entries behind : List Entry}
    (accounts : Accounts truncate above taken reached entries)
    (noWarnings : ofLevel .warning behind = []) (noMoves : additions behind = []) :
    Accounts truncate above taken reached (entries ++ behind) where
  warnings := by
    rw [ofLevel_append, noWarnings, List.append_nil]
    exact accounts.warnings
  moves := by
    rw [additions_append, noMoves, List.append_nil]
    exact accounts.moves

/-- The entry of an automaton that was read. -/
def readEntry (automaton : Automaton) : Entry :=
  countsEntry automaton.states.length automaton.alphabet.length automaton.acceptingStates.length

/-- What is reported behind the lines of an automaton: a note if it has no
start, and that it was built and read. -/
def closing (automaton : Automaton) : List Event :=
  (if automaton.start = none then [.readWithoutStart automaton.states.length] else []) ++
    [automaton.builtEvent, readEvent automaton]

theorem closing_kinds (automaton : Automaton) :
    ofLevel .warning ((closing automaton).map Event.entry) = [] ∧
      additions ((closing automaton).map Event.entry) = [] ∧
      ofLevel .error ((closing automaton).map Event.entry) = [] ∧
      ofLevel .info ((closing automaton).map Event.entry) =
        (if automaton.start = none then [startlessEntry automaton.states.length] else []) ++
          [readEntry automaton] ∧
      ((closing automaton).map Event.entry).getLast? = some (readEntry automaton) := by
  unfold closing
  split <;> exact ⟨rfl, rfl, rfl, rfl, rfl⟩

theorem read_of_readLines {text : String} {events : List Event} {final : Draft}
    (proper : final.Proper)
    (reading : readLines truncate Draft.empty 1 (Text.lines text.toList) = ⟨events, .ok final⟩) :
    read truncate text = ⟨events ++ closing proper.automaton, .ok proper.automaton⟩ := by
  have note : (if final.start.isNone then [Event.readWithoutStart final.states.length] else []) =
      if proper.automaton.start = none then
        [Event.readWithoutStart proper.automaton.states.length] else [] := by
    simp only [Option.isNone_iff_eq_none]
    rfl
  unfold read
  rw [reading]
  simp only [Draft.finish, proper.build, note, closing]
  simp

/-- The log of a reading tells what it did.  The warnings are those of the
lines that were reached, and one entry was added for each move line that was
taken.  If there is an automaton there is no error, and the counts of the
automaton stand last, behind a note if it has no start.  Otherwise the only
error stands last, with the place and the words of the fault. -/
theorem read_tells (truncate : Bool) (text : String) :
    (∀ automaton, (read truncate text).result = .ok automaton →
      Accounts truncate [] (strippedLines text) (strippedLines text) (read truncate text).entries ∧
      ofLevel .error (read truncate text).entries = [] ∧
      ofLevel .info (read truncate text).entries =
        (if automaton.start = none then [startlessEntry automaton.states.length] else []) ++
          [countsEntry automaton.states.length automaton.alphabet.length
            automaton.acceptingStates.length] ∧
      (read truncate text).entries.getLast? =
        some (countsEntry automaton.states.length automaton.alphabet.length
          automaton.acceptingStates.length)) ∧
    ∀ located, (read truncate text).result = .error located →
      ∃ above line below, strippedLines text = above ++ line :: below ∧
        located.number = some ((above.length + 1 : Nat) : Int) ∧
        located.line = some (String.ofList line) ∧
        Accounts truncate [] above (above ++ [line]) (read truncate text).entries ∧
        ofLevel .error (read truncate text).entries =
          [failureEntry (above.length + 1) located.fault.message] ∧
        (read truncate text).entries.getLast? =
          some (failureEntry (above.length + 1) located.fault.message) := by
  have due : Due truncate [] (strippedLines text)
      (readLines truncate Draft.empty 1 (Text.lines text.toList)) :=
    due_readLines Recorded.empty (Text.lines text.toList)
  have passes := readLines_result truncate Draft.empty 1 (Text.lines text.toList)
  cases reading : readLines truncate Draft.empty 1 (Text.lines text.toList) with
  | mk events result =>
    rw [reading] at due passes
    cases result with
    | error fault =>
      have whole : read truncate text = ⟨events, .error fault⟩ := by
        rw [read, reading]
      rw [whole]
      constructor
      · rintro automaton ⟨⟩
      · rintro located ⟨⟩
        rcases due.2 fault rfl with
          ⟨above, line, below, before, split, number, text, told, accounts, plain⟩
        have entries : (⟨events, .error fault⟩ : Reported LocatedFault Automaton).entries =
            before ++ [failureEntry (above.length + 1) fault.fault.message] :=
          told
        rw [entries]
        refine ⟨above, line, below, split, number, text, accounts.append rfl ?_, ?_,
          List.getLast?_concat⟩
        · simp [additions, failureEntry]
        · rw [ofLevel_append, plain.ofLevel_eq_nil (by decide) (by decide)]
          rfl
    | ok final =>
      have proper := proper_pass Draft.Proper.empty passes.symm
      have passed : Passed truncate [] (strippedLines text) (events.map Event.entry) :=
        due.1 final rfl
      rcases passed with ⟨accounts, plain⟩
      have entries : (⟨events ++ closing proper.automaton, .ok proper.automaton⟩ :
          Reported LocatedFault Automaton).entries =
            events.map Event.entry ++ (closing proper.automaton).map Event.entry :=
        List.map_append
      rw [read_of_readLines proper reading, entries]
      constructor
      · rintro automaton ⟨⟩
        rcases closing_kinds proper.automaton with ⟨noWarnings, noMoves, noErrors, notes, last⟩
        refine ⟨accounts.append noWarnings noMoves, ?_, ?_, ?_⟩
        · rw [ofLevel_append, plain.ofLevel_eq_nil (by decide) (by decide), noErrors,
            List.append_nil]
        · rw [ofLevel_append, plain.ofLevel_eq_nil (by decide) (by decide), notes]
          rfl
        · rw [List.getLast?_append, last]
          rfl
      · rintro located ⟨⟩

/-- A token is cut, and a symbol is listed only behind its first move. -/
def hastyLines : String :=
  "alphabet=\x7b0\x7d\nstate=p,q\n(p, 01)->q\n(q, 2)->p\nalphabet=2\n\n(q, 2)->p\n"

def hastyWarnings : List Entry :=
  [⟨.warning, "dfa_core.spec_parser", "transition_symbol_truncated",
      [("symbol", .string "01"), ("used", .string "0")]⟩,
    ⟨.warning, "dfa_core.spec_parser", "transition_symbol_outside_alphabet",
      [("line_no", .int 4), ("symbol", .string "2")]⟩]

def hastyAdditions : List Entry :=
  [⟨.debug, "dfa_core.builder", "transition_added",
      [("state", .string "p"), ("symbol", .string "0"), ("next_state", .string "q")]⟩,
    ⟨.debug, "dfa_core.builder", "transition_added",
      [("state", .string "q"), ("symbol", .string "2"), ("next_state", .string "p")]⟩,
    ⟨.debug, "dfa_core.builder", "transition_added",
      [("state", .string "q"), ("symbol", .string "2"), ("next_state", .string "p")]⟩]

def hastyNotes : List Entry :=
  [⟨.info, "dfa_core.spec_parser", "spec_without_start_state", [("states", .int 2)]⟩,
    ⟨.info, "dfa_core.spec_parser", "spec_parsed",
      [("states", .int 2), ("alphabet", .int 2), ("accept_states", .int 0)]⟩]

/-- The cut token conflicts with the move above it. -/
def opposedLines : String :=
  hastyLines ++ "(p, 0x)->p\n"

def opposedWarnings : List Entry :=
  hastyWarnings ++
    [⟨.warning, "dfa_core.spec_parser", "transition_symbol_truncated",
      [("symbol", .string "0x"), ("used", .string "0")]⟩]

def opposedFailure : Entry :=
  ⟨.error, "dfa_core.spec_parser", "spec_parse_failed",
    [("line_no", .int 8),
      ("error", .string "state 'p' already moves to 'q' on '0', cannot also move to 'p'")]⟩

theorem read_tells_hastyLines :
    (∃ automaton, (read true hastyLines).result = .ok automaton ∧
      WarnsAll true [] (strippedLines hastyLines) hastyWarnings ∧
      List.Forall₂ (Adds true) (moveLines (strippedLines hastyLines)) hastyAdditions ∧
      ofLevel .error (read true hastyLines).entries = [] ∧
      ofLevel .info (read true hastyLines).entries = hastyNotes ∧
      (if automaton.start = none then [startlessEntry automaton.states.length] else []) ++
          [countsEntry automaton.states.length automaton.alphabet.length
            automaton.acceptingStates.length] = hastyNotes ∧
      (read true hastyLines).entries.getLast? = hastyNotes.getLast?) ∧
    ∃ located above line, (read true opposedLines).result = .error located ∧
      located.number = some 8 ∧
      WarnsAll true [] (above ++ [line]) opposedWarnings ∧
      List.Forall₂ (Adds true) (moveLines above) hastyAdditions ∧
      failureEntry 8 located.fault.message = opposedFailure ∧
      ofLevel .error (read true opposedLines).entries = [opposedFailure] ∧
      (read true opposedLines).entries.getLast? = some opposedFailure := by
  constructor
  · have events : (read true hastyLines).events =
        [.symbolTruncated "01" '0', .moveAdded "p" '0' "q", .symbolOutsideAlphabet 4 '2',
          .moveAdded "q" '2' "p", .moveAdded "q" '2' "p", .readWithoutStart 2,
          .automatonBuilt 2 2 none, .specificationRead 2 2 0] := by
      decide +kernel
    have warnings : ofLevel .warning (read true hastyLines).entries = hastyWarnings := by
      rw [Reported.entries, events]
      rfl
    have moves : additions (read true hastyLines).entries = hastyAdditions := by
      rw [Reported.entries, events]
      rfl
    have notes : ofLevel .info (read true hastyLines).entries = hastyNotes := by
      rw [Reported.entries, events]
      rfl
    have last : (read true hastyLines).entries.getLast? = hastyNotes.getLast? := by
      rw [Reported.entries, events]
      rfl
    have succeeds : (read true hastyLines).result.isOk = true := by decide +kernel
    cases found : (read true hastyLines).result with
    | error located =>
      rw [found] at succeeds
      cases succeeds
    | ok automaton =>
      rcases (read_tells true hastyLines).1 automaton found with ⟨accounts, errors, noted, _⟩
      exact ⟨automaton, rfl, warnings ▸ accounts.warnings, moves ▸ accounts.moves, errors, notes,
        noted.symm.trans notes, last⟩
  · have events : (read true opposedLines).events =
        [.symbolTruncated "01" '0', .moveAdded "p" '0' "q", .symbolOutsideAlphabet 4 '2',
          .moveAdded "q" '2' "p", .moveAdded "q" '2' "p", .symbolTruncated "0x" '0',
          .readingFailed 8
            "state 'p' already moves to 'q' on '0', cannot also move to 'p'"] := by
      decide +kernel
    have warnings : ofLevel .warning (read true opposedLines).entries = opposedWarnings := by
      rw [Reported.entries, events]
      rfl
    have moves : additions (read true opposedLines).entries = hastyAdditions := by
      rw [Reported.entries, events]
      rfl
    have last : (read true opposedLines).entries.getLast? = some opposedFailure := by
      rw [Reported.entries, events]
      rfl
    have place : (read true opposedLines).result.mapError LocatedFault.number =
        .error (some 8) := by
      decide +kernel
    cases found : (read true opposedLines).result with
    | ok automaton =>
      rw [found] at place
      cases place
    | error located =>
      rw [found] at place
      have number : located.number = some 8 := Except.error.inj place
      rcases (read_tells true opposedLines).2 located found with
        ⟨above, line, _, _, numbered, _, accounts, errors, told⟩
      have behind : above.length + 1 = 8 :=
        Int.ofNat.inj (Option.some.inj (numbered.symm.trans number))
      rw [behind] at errors told
      have failure : failureEntry 8 located.fault.message = opposedFailure :=
        Option.some.inj (told.symm.trans last)
      exact ⟨located, above, line, rfl, number, warnings ▸ accounts.warnings,
        moves ▸ accounts.moves, failure, failure ▸ errors, last⟩

end Specification
end FiniteAutomata
