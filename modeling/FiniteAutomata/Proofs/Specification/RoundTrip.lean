import FiniteAutomata.Proofs.Specification.Written

namespace FiniteAutomata
namespace Specification

/-!
# Reading what was written

A written specification is read without a fault, and what is read is the
automaton that was written, up to the symbols that the alphabet line does not
carry.
-/

open Text (Unbroken isBlank isLineBreak)

/-! ## The written lines are admissible -/

section Written

variable {automaton : Automaton} {truncate : Bool}

theorem admissible_silent (lines : List Line) (silent : Nat) :
    Admissible truncate lines (List.replicate silent .other) := by
  induction silent generalizing lines with
  | zero => trivial
  | succ less inductionHypothesis => exact ⟨trivial, inductionHypothesis _⟩

theorem readMove_moveLine (writable : Writable automaton) {move : String × Char × String}
    (member : move ∈ automaton.transitions) :
    readMove truncate (moveLine move).toList = .ok move := by
  have names := Automaton.names_of_mem_transitions member
  exact readMove_of_denotes (denotes_moveLine (writable.fits _ names.1) (writable.solid move member)
    (writable.fits _ names.2)) truncate

theorem move?_moveLine (writable : Writable automaton) {move : String × Char × String}
    (member : move ∈ automaton.transitions) :
    (Line.move (moveLine move).toList).move? truncate = some move := by
  rw [Line.move?, readMove_moveLine writable member]
  rfl

/-- Transitions of an automaton can come behind each other in any order, since
none of them opposes another. -/
theorem admissible_moves (writable : Writable automaton) {moves : List (String × Char × String)}
    (among : ∀ move ∈ moves, move ∈ automaton.transitions) {lines : List Line}
    (declared : declaredNames lines = automaton.stateNames)
    (described : ∀ move ∈ describedMoves truncate lines, move ∈ automaton.transitions) :
    Admissible truncate lines (moves.map fun move => .move (moveLine move).toList) := by
  induction moves generalizing lines with
  | nil => trivial
  | cons move rest inductionHypothesis =>
    have member := among move List.mem_cons_self
    have names := Automaton.names_of_mem_transitions member
    rw [List.map_cons, Admissible]
    constructor
    · rw [Line.Admissible, declared]
      refine ⟨move, readMove_moveLine writable member, names.1, names.2, ?_⟩
      intro other earlier source symbol
      exact Automaton.target_eq_of_mem_transitions (described other earlier) member source symbol
    · apply inductionHypothesis fun other later => among other (List.mem_cons_of_mem _ later)
      · rw [declaredNames_concat, declared]
        exact List.append_nil _
      · intro other inside
        rw [describedMoves_concat, move?_moveLine writable member, List.mem_append] at inside
        rcases inside with earlier | last
        · exact described other earlier
        · rw [List.mem_singleton.mp last]
          exact member

/-- A part of all lines, silent ones left out. -/
theorem flatMap_saidLines {α : Type} {part : Line → List α} (quiet : part .other = [])
    (silent : Nat) : (saidLines automaton silent).flatMap part =
      part (.alphabet (carried automaton.alphabet)) ++ (part (.states automaton.stateNames) ++
        (automaton.startState?.toList.flatMap fun state => part (.start state.name)) ++
          part (.accepting (automaton.acceptingStates.map State.name)) ++
            automaton.transitions.flatMap fun move => part (.move (moveLine move).toList)) := by
  have silence : (List.replicate silent Line.other).flatMap part = [] := by
    rw [List.flatMap_eq_nil_iff]
    intro line member
    rw [List.eq_of_mem_replicate member, quiet]
  unfold saidLines spokenLines
  rw [List.flatMap_append, List.flatMap_cons, silence, List.flatMap_append, List.flatMap_append,
    List.flatMap_append, List.flatMap_map, List.flatMap_map, List.flatMap_singleton,
    List.flatMap_singleton, List.append_nil]

theorem declaredNames_saidLines (silent : Nat) :
    declaredNames (saidLines automaton silent) = automaton.stateNames := by
  rw [declaredNames, flatMap_saidLines rfl]
  simp [Line.declared]

theorem listedSymbols_saidLines (silent : Nat) :
    listedSymbols (saidLines automaton silent) = carried automaton.alphabet := by
  rw [listedSymbols, flatMap_saidLines rfl]
  simp [Line.listed]

theorem lastStart?_saidLines (silent : Nat) :
    lastStart? (saidLines automaton silent) = automaton.startState?.map State.name := by
  have still : (automaton.transitions.flatMap fun move =>
      (Line.move (moveLine move).toList).startName?.toList) = [] :=
    List.flatMap_eq_nil_iff.mpr fun _ _ => rfl
  rw [lastStart?, List.filterMap_eq_flatMap_toList, flatMap_saidLines rfl, still]
  cases automaton.startState? <;> rfl

theorem describedMoves_saidLines (writable : Writable automaton) (silent : Nat) :
    describedMoves truncate (saidLines automaton silent) = automaton.transitions := by
  have read : (automaton.transitions.flatMap fun move =>
      ((Line.move (moveLine move).toList).move? truncate).toList) = automaton.transitions := by
    conv_rhs => rw [← List.flatMap_singleton' automaton.transitions]
    apply List.flatMap_congr
    intro move member
    rw [move?_moveLine writable member]
    rfl
  rw [describedMoves, List.filterMap_eq_flatMap_toList, flatMap_saidLines rfl, read]
  simp [Line.move?]

theorem flagged_saidLines (silent : Nat) {state : State} (member : state ∈ automaton.states) :
    Flagged (saidLines automaton silent) state.name ↔ state.accepting = true := by
  constructor
  · rintro ⟨before, line, after, whole, listed, _⟩
    have among : state.name ∈ (saidLines automaton silent).flatMap Line.accepted := by
      rw [whole]
      exact List.mem_flatMap.mpr ⟨line, by simp, listed⟩
    rw [flatMap_saidLines rfl] at among
    have named : state.name ∈ automaton.acceptingStates.map State.name := by
      simpa [Line.accepted] using among
    rcases List.mem_map.mp named with ⟨other, held, same⟩
    rcases List.mem_filter.mp held with ⟨otherMember, accepting⟩
    rwa [← Automaton.eq_of_name_eq otherMember member same]
  · intro accepting
    refine ⟨.alphabet (carried automaton.alphabet) :: List.replicate silent .other ++
      ([.states automaton.stateNames] ++
        automaton.startState?.toList.map fun state => .start state.name),
      .accepting (automaton.acceptingStates.map State.name),
      automaton.transitions.map fun move => .move (moveLine move).toList, ?_, ?_, ?_⟩
    · simp [saidLines, spokenLines]
    · exact List.mem_map_of_mem (List.mem_filter.mpr ⟨member, accepting⟩)
    · have declared := Automaton.name_mem_stateNames member
      exact List.mem_flatMap.mpr ⟨.states automaton.stateNames, by simp, declared⟩

/-- Behind lines that declare and describe nothing, every written line can
come behind the lines above it. -/
theorem admissible_spokenLines (writable : Writable automaton) {front : List Line}
    (undeclared : declaredNames front = []) (undescribed : describedMoves truncate front = []) :
    Admissible truncate front (spokenLines automaton) := by
  have states : (Line.states automaton.stateNames).Admissible truncate front := by
    refine ⟨writable.fits, automaton.sound.names_distinct, ?_⟩
    rw [undeclared]
    exact fun _ _ => List.not_mem_nil
  have every : ∀ move ∈ automaton.transitions, move ∈ automaton.transitions :=
    fun _ member => member
  unfold spokenLines
  cases found : automaton.startState? with
  | none =>
    refine ⟨states, trivial, admissible_moves writable every ?_ ?_⟩
    · simp only [declaredNames_concat, undeclared, Line.declared, List.nil_append, List.append_nil]
    · intro move inside
      simp only [describedMoves_concat, undescribed, Line.move?, Option.toList_none,
        List.append_nil, List.not_mem_nil] at inside
  | some state =>
    have member := Automaton.mem_states_of_startState? found
    refine ⟨states, ?_, trivial, admissible_moves writable every ?_ ?_⟩
    · rw [Line.Admissible, declaredNames_concat]
      exact List.mem_append_right _ (Automaton.name_mem_stateNames member)
    · simp only [declaredNames_concat, undeclared, Line.declared, List.nil_append, List.append_nil]
    · intro move inside
      simp only [describedMoves_concat, undescribed, Line.move?, Option.toList_none,
        List.append_nil, List.not_mem_nil] at inside

theorem admissible_saidLines (writable : Writable automaton) (silent : Nat) :
    Admissible truncate [] (saidLines automaton silent) := by
  have quiet : ∀ line ∈ .alphabet (carried automaton.alphabet) :: List.replicate silent Line.other,
      line.declared = [] ∧ line.move? truncate = none := by
    intro line member
    rcases List.mem_cons.mp member with rfl | later
    · exact ⟨rfl, rfl⟩
    · rw [List.eq_of_mem_replicate later]
      exact ⟨rfl, rfl⟩
  unfold saidLines
  rw [admissible_append_iff, List.nil_append]
  refine ⟨⟨trivial, admissible_silent _ _⟩, admissible_spokenLines writable ?_ ?_⟩
  · exact List.flatMap_eq_nil_iff.mpr fun line member => (quiet line member).1
  · exact List.filterMap_eq_nil_iff.mpr fun line member => (quiet line member).2

end Written

/-! ## What is read -/

theorem nodup_carried {alphabet : List Char} (distinct : alphabet.Nodup) :
    (carried alphabet).Nodup :=
  (distinct.sublist (List.takeWhile_sublist _)).filter _

/-- The start is the position of the name of the start state. -/
theorem start_eq (automaton : Automaton) : automaton.start =
    (automaton.startState?.map State.name).map automaton.stateNames.idxOf := by
  unfold Automaton.startState?
  cases start : automaton.start with
  | none => rfl
  | some index =>
    have inside := automaton.sound.start_bound index start
    have distinct : automaton.stateNames.Nodup := automaton.sound.names_distinct
    have named : index < automaton.stateNames.length := by
      rw [Automaton.length_stateNames]
      exact inside
    have entry : (automaton.states[index]).name = automaton.stateNames[index] := by
      simp [Automaton.stateNames]
    rw [Option.bind_some, List.getElem?_eq_getElem inside, Option.map_some, Option.map_some, entry,
      distinct.idxOf_getElem]

/-- A written specification is read as the automaton that was written, with the
symbols that its alphabet line carries. -/
theorem read_write {automaton : Automaton} (writable : Writable automaton) (truncate : Bool) :
    (read truncate (write automaton)).result =
      .ok (automaton.withAlphabet (nodup_carried automaton.sound.alphabet_distinct)) := by
  rcases lines_write writable with ⟨silent, said⟩
  have admissible : Admissible truncate [] (saidLines automaton silent) :=
    admissible_saidLines writable silent
  rw [← said] at admissible
  have passes : ∃ draft,
      pass truncate Draft.empty 1 (strippedLines (write automaton)) = .ok draft :=
    Recorded.empty.pass_ok_iff.mpr admissible
  rcases passes with ⟨draft, passed⟩
  have recorded := Recorded.empty.pass passed
  rw [List.nil_append, said] at recorded
  refine read_eq_ok_iff.mpr ⟨draft, recorded.proper, passed, ?_⟩
  have names : draft.stateNames = automaton.stateNames := by
    rw [recorded.names, declaredNames_saidLines]
  symm
  refine Automaton.eq_of_named names ?_ ?_ ?_
  · have symbols := recorded.alphabet
    rw [listedSymbols_saidLines,
      eraseDups_of_nodup (nodup_carried automaton.sound.alphabet_distinct)] at symbols
    exact symbols
  · have start := recorded.start
    rw [lastStart?_saidLines, names] at start
    exact start.trans (start_eq automaton).symm
  · intro state member other otherMember same
    have held : other ∈ automaton.states := otherMember
    constructor
    · have flag := recorded.accepting state member
      rw [same, flagged_saidLines silent held] at flag
      exact Bool.eq_iff_iff.mpr flag
    · have moves := recorded.moves state member
      have distinct : (other.named automaton.stateNames).Nodup := by
        apply List.Nodup.of_map Prod.fst
        rw [State.map_fst_named]
        exact automaton.sound.symbols_distinct other held
      have own : ((other.named automaton.stateNames).map fun move => (other.name, move)).map
          Prod.snd = other.named automaton.stateNames := by
        rw [List.map_map]
        exact List.map_id _
      rw [movesFrom, describedMoves_saidLines writable, same, Automaton.filter_transitions held,
        own, eraseDups_of_nodup distinct] at moves
      exact moves

/-! ## What has been read can be written -/

theorem unbroken_of_mem_strippedLines {text : String} {line : List Char}
    (member : line ∈ strippedLines text) : Unbroken line := by
  rcases List.mem_map.mp member with ⟨raw, among, rfl⟩
  exact fun c inside => Text.unbroken_of_mem_lines among c (Text.mem_of_mem_trimmed inside)

/-- Names are taken out of the text that lists them. -/
theorem mem_of_mem_names {text : List Char} {name : String} (among : name ∈ names text) {c : Char}
    (inside : c ∈ name.toList) : c ∈ text := by
  rcases List.mem_map.mp among with ⟨piece, kept, rfl⟩
  rcases List.mem_map.mp (List.mem_filter.mp kept).1 with ⟨raw, cut, rfl⟩
  rw [String.toList_ofList] at inside
  have within := Text.mem_of_mem_splitAt cut (Text.mem_of_mem_trimmed inside)
  exact (List.mem_filter.mp within).1

/-- Names that unbroken lines declare are unbroken. -/
theorem unbroken_of_mem_declaredNames {lines : List (List Char)}
    (unbroken : ∀ line ∈ lines, Unbroken line) {name : String}
    (declared : name ∈ declaredNames (lines.map Line.ofText)) : Unbroken name.toList := by
  rcases List.mem_flatMap.mp declared with ⟨_, among, found⟩
  rcases List.mem_map.mp among with ⟨line, held, rfl⟩
  rw [declared_ofText] at found
  rcases exists_value found with ⟨value, rfl, listed⟩
  intro c inside
  exact unbroken _ held c (List.mem_append_right _ (mem_of_mem_names listed inside))

/-- The symbol of a described move is no blank. -/
theorem solid_of_mem_describedMoves {truncate : Bool} {lines : List (List Char)}
    {move : String × Char × String}
    (described : move ∈ describedMoves truncate (lines.map Line.ofText)) :
    isBlank move.2.1 = false := by
  rcases List.mem_filterMap.mp described with ⟨_, member, found⟩
  rcases List.mem_map.mp member with ⟨line, _, rfl⟩
  rw [move?_ofText] at found
  split at found
  · rename_i opens
    cases read : readMove truncate line with
    | error malformation =>
      rw [read] at found
      cases found
    | ok given =>
      rw [read] at found
      rcases Option.some.inj found with rfl
      rcases readMove_eq_ok_iff.mp read with ⟨edge, edgeFound, used, _, _⟩
      rcases opens with ⟨rest, rfl⟩
      exact (Edge.spells_of_ofLine ⟨rest, rfl⟩ edgeFound).symbol_solid used
  · cases found

/-- Whatever is read can be written again. -/
theorem writable_of_read {truncate : Bool} {text : String} {automaton : Automaton}
    (readable : (read truncate text).result = .ok automaton) : Writable automaton := by
  rcases recorded_of_read readable with ⟨draft, recorded, _, rfl⟩
  exact {
    fits := recorded.proper.fits
    unbroken := by
      intro name member
      rw [Draft.Proper.stateNames_automaton, recorded.names] at member
      exact unbroken_of_mem_declaredNames (fun _ => unbroken_of_mem_strippedLines) member
    solid := by
      intro move member
      exact solid_of_mem_describedMoves (recorded.mem_transitions_iff.mp member) }

/-- No symbol that is read is a mark. -/
theorem unmarked_of_read {truncate : Bool} {text : String} {automaton : Automaton}
    (readable : (read truncate text).result = .ok automaton) :
    ∀ symbol ∈ automaton.alphabet, isListMark symbol = false := by
  rcases recorded_of_read readable with ⟨draft, recorded, _, rfl⟩
  intro symbol member
  have among : symbol ∈ (listedSymbols ((strippedLines text).map Line.ofText)).eraseDups :=
    recorded.alphabet ▸ member
  rw [List.mem_eraseDups] at among
  rcases List.mem_flatMap.mp among with ⟨_, held, listed⟩
  rcases List.mem_map.mp held with ⟨line, _, rfl⟩
  rw [listed_ofText] at listed
  rcases exists_value listed with ⟨value, _, inside⟩
  simpa using (List.mem_filter.mp inside).2

/-! ## The round trip -/

theorem carried_eq_self {alphabet : List Char}
    (unmarked : ∀ symbol ∈ alphabet, isListMark symbol = false) : carried alphabet = alphabet := by
  have whole : alphabet.takeWhile (fun c => !isLineBreak c) = alphabet := by
    rw [List.takeWhile_eq_self_iff]
    intro c member
    have solid : isBlank c = false := by
      have parts := unmarked c member
      rw [isListMark, Bool.or_eq_false_iff] at parts
      exact parts.2
    simp [Text.isLineBreak_eq_false solid]
  rw [carried, whole, List.filter_eq_self]
  intro c member
  simp [unmarked c member]

/-- An automaton that can be written, with an alphabet that can be, is read as
it was written. -/
theorem read_write_self {automaton : Automaton} (writable : Writable automaton)
    (unmarked : ∀ symbol ∈ automaton.alphabet, isListMark symbol = false) (truncate : Bool) :
    (read truncate (write automaton)).result = .ok automaton := by
  rw [read_write writable truncate]
  exact congrArg Except.ok (Automaton.ext rfl (carried_eq_self unmarked) rfl)

/-- What was read once is read again from what is written of it, with and
without truncation. -/
theorem read_write_of_read {first : Bool} {text : String} {automaton : Automaton}
    (readable : (read first text).result = .ok automaton) (second : Bool) :
    (read second (write automaton)).result = .ok automaton :=
  read_write_self (writable_of_read readable) (unmarked_of_read readable) second

theorem writable_iff {automaton : Automaton} : Writable automaton ↔
    (∀ name ∈ automaton.stateNames, checkName name = .ok () ∧ Unbroken name.toList) ∧
      ∀ move ∈ automaton.transitions, isBlank move.2.1 = false := by
  constructor
  · rintro ⟨fits, unbroken, solid⟩
    exact ⟨fun name member => ⟨checkName_eq_ok_iff.mpr (fits name member), unbroken name member⟩,
      solid⟩
  · rintro ⟨names, solid⟩
    exact ⟨fun name member => checkName_eq_ok_iff.mp (names name member).1,
      fun name member => (names name member).2, solid⟩

/-- Reading gives an automaton back, up to the order of the moves of a state,
exactly if its names fit on a line of the format, its symbols are no marks and
its moves read no blanks.  The alphabet alone is no obstacle to the rest: then
only what the alphabet line carries is left of it. -/
theorem read_write_same_iff (automaton : Automaton) :
    ((∃ again, (read false (write automaton)).result = .ok again ∧ again.same automaton = true) ↔
      (∀ name ∈ automaton.stateNames, checkName name = .ok () ∧ Unbroken name.toList) ∧
        (∀ symbol ∈ automaton.alphabet, isListMark symbol = false) ∧
          ∀ move ∈ automaton.transitions, isBlank move.2.1 = false) ∧
      ((∀ name ∈ automaton.stateNames, checkName name = .ok () ∧ Unbroken name.toList) →
        (∀ move ∈ automaton.transitions, isBlank move.2.1 = false) →
          ∃ again, (read false (write automaton)).result = .ok again ∧
            again.states = automaton.states ∧ again.start = automaton.start ∧
              again.alphabet = (automaton.alphabet.takeWhile fun c => !isLineBreak c).filter
                fun c => !isListMark c) := by
  refine ⟨⟨?_, ?_⟩, ?_⟩
  · rintro ⟨again, readAgain, same⟩
    have writable : Writable automaton := by
      have given := writable_of_read readAgain
      have names := Automaton.stateNames_eq_of_same same
      exact ⟨names ▸ given.fits, names ▸ given.unbroken,
        fun move member => given.solid move (Automaton.mem_transitions_of_same same member)⟩
    have alphabet := (Automaton.same_iff.mp same).2.1
    have parts := writable_iff.mp writable
    exact ⟨parts.1, alphabet ▸ unmarked_of_read readAgain, parts.2⟩
  · rintro ⟨names, unmarked, solid⟩
    have writable := writable_iff.mpr ⟨names, solid⟩
    exact ⟨automaton, read_write_self writable unmarked false, automaton.same_refl⟩
  · intro names solid
    have writable := writable_iff.mpr ⟨names, solid⟩
    exact ⟨_, read_write writable false, rfl, rfl, rfl⟩

/-- Names and symbols made of the characters that the format uses, and an
alphabet that breaks its line. -/
def awkward : Automaton where
  states := [⟨">a", true, [(',', 1), ('>', 0), ('\x7d', 1)]⟩, ⟨"b-", false, [('-', 0), ('(', 1)]⟩]
  alphabet := [',', 'a', '\n', '>']
  start := some 1
  sound :=
    { names_nonempty := by decide
      names_distinct := by decide
      alphabet_distinct := by decide
      start_bound := by
        rintro index ⟨⟩
        decide
      symbols_distinct := by decide
      targets_bound := by decide }

theorem read_write_awkward :
    (∀ name ∈ awkward.stateNames, checkName name = .ok () ∧ Unbroken name.toList) ∧
      (∀ move ∈ awkward.transitions, isBlank move.2.1 = false) ∧
        ∃ again, (read false (write awkward)).result = .ok again ∧
          again.states = awkward.states ∧ again.start = awkward.start ∧ again.alphabet = ['a'] := by
  have names : ∀ name ∈ awkward.stateNames, checkName name = .ok () ∧ Unbroken name.toList := by
    decide +kernel
  have solid : ∀ move ∈ awkward.transitions, isBlank move.2.1 = false := by decide
  rcases (read_write_same_iff awkward).2 names solid with
    ⟨again, readAgain, states, start, alphabet⟩
  exact ⟨names, solid, again, readAgain, states, start, alphabet⟩

end Specification
end FiniteAutomata
