import FiniteAutomata.Proofs.Specification.Meaning

namespace FiniteAutomata
namespace Specification

/-!
# Specifications in another order

A name has to be declared above the lines that use it.  Where all declarations
stand above all uses, nothing else of the order of the lines matters but the
order within the declarations, within the alphabet and within the starts: the
moves and the lists of accepting states can come in any order and anywhere
behind the declarations.  Two such specifications with the same lines are both
read, as automata that differ at most in the order of moves, or both refused,
though not always for the same line.
-/

open Text (after?)

/-! ## Two orders of the same lines -/

/-- The lines with a given beginning. -/
def linesOf (head : List Char) (lines : List (List Char)) : List (List Char) :=
  lines.filter fun line => head <+: line

/-- A line uses names that other lines declare. -/
def UsesNames (line : List Char) : Prop :=
  startHead <+: line ∨ acceptingHead <+: line ∨ ['('] <+: line

/-- No name is declared below a line that uses names. -/
def StatesFirst (lines : List (List Char)) : Prop :=
  lines.Pairwise fun above below => statesHead <+: below → ¬ UsesNames above

instance : DecidablePred UsesNames := fun line =>
  inferInstanceAs (Decidable (startHead <+: line ∨ acceptingHead <+: line ∨ ['('] <+: line))

instance : DecidablePred StatesFirst := fun lines =>
  inferInstanceAs (Decidable (lines.Pairwise
    fun above below => statesHead <+: below → ¬ UsesNames above))

/-- Lines in another order, with other blank and unknown lines between them. -/
structure Rearranged (first second : List (List Char)) : Prop where
  states : linesOf statesHead first = linesOf statesHead second
  alphabet : linesOf alphabetHead first = linesOf alphabetHead second
  start : linesOf startHead first = linesOf startHead second
  others : (first.filter fun line => acceptingHead <+: line ∨ ['('] <+: line).Perm
    (second.filter fun line => acceptingHead <+: line ∨ ['('] <+: line)

/-! ## Lines without their order -/

/-- A line uses names, by what it is about. -/
def Line.Uses : Line → Prop
  | .start _ | .accepting _ | .move _ => True
  | _ => False

/-- Nothing is declared below a use. -/
def DeclaredFirst (lines : List Line) : Prop :=
  lines.Pairwise fun above below => below.declared ≠ [] → ¬ above.Uses

/-- Lines fit together, whatever their order. -/
@[mk_iff]
structure Coherent (truncate : Bool) (lines : List Line) : Prop where
  fits : ∀ name ∈ declaredNames lines, NameFits name
  distinct : (declaredNames lines).Nodup
  starts_known : ∀ name, .start name ∈ lines → name ∈ declaredNames lines
  moves_read : ∀ text, .move text ∈ lines → ∃ move, readMove truncate text = .ok move
  moves_known : ∀ move ∈ describedMoves truncate lines,
    move.1 ∈ declaredNames lines ∧ move.2.2 ∈ declaredNames lines
  moves_agree : ∀ move ∈ describedMoves truncate lines, ∀ other ∈ describedMoves truncate lines,
    other.1 = move.1 → other.2.1 = move.2.1 → other.2.2 = move.2.2

section Order

variable {truncate : Bool} {lines : List Line} {line : Line} {name : String}

/-- A described move stands on a line that uses its names. -/
theorem exists_line_of_described {move : String × Char × String}
    (described : move ∈ describedMoves truncate lines) : ∃ line ∈ lines, line.Uses := by
  rcases List.mem_filterMap.mp described with ⟨line, among, found⟩
  cases line with
  | move text => exact ⟨_, among, trivial⟩
  | _ => cases found

theorem declaredFirst_concat_iff : DeclaredFirst (lines ++ [line]) ↔
    DeclaredFirst lines ∧ (line.declared ≠ [] → ∀ above ∈ lines, ¬ above.Uses) := by
  rw [DeclaredFirst, List.pairwise_append]
  simp only [List.pairwise_singleton, true_and, List.mem_singleton, forall_eq, DeclaredFirst]
  exact and_congr_right fun _ =>
    ⟨fun apart declares above among => apart above among declares,
      fun apart above among declares => apart declares above among⟩

namespace Coherent

/-- A line of names can come behind lines that it fits with, and those fit
without it, if none of them uses names. -/
theorem of_states {names : List String} (unused : names ≠ [] → ∀ above ∈ lines, ¬ above.Uses)
    (coherent : Coherent truncate (lines ++ [.states names])) :
    Coherent truncate lines ∧ (Line.states names).Admissible truncate lines := by
  have fits := coherent.fits
  have distinct := coherent.distinct
  have starts := coherent.starts_known
  have read := coherent.moves_read
  have known := coherent.moves_known
  have agree := coherent.moves_agree
  simp only [declaredNames_concat, describedMoves_concat, Line.declared, Line.move?,
    Option.toList_none, List.append_nil] at fits distinct starts known agree
  rcases List.nodup_append.mp distinct with ⟨older, newer, apart⟩
  -- a name that is used above is declared above, since else nothing is declared here
  have settled : ∀ name ∈ declaredNames lines ++ names, (∃ above ∈ lines, above.Uses) →
      name ∈ declaredNames lines := by
    rintro name among ⟨above, held, uses⟩
    by_cases silent : names = []
    · rwa [silent, List.append_nil] at among
    · exact absurd uses (unused silent above held)
  refine ⟨?_, fun name among => fits name (List.mem_append_right _ among), newer,
    fun name among before => apart name before name among rfl⟩
  exact {
    fits := fun name among => fits name (List.mem_append_left _ among)
    distinct := older
    starts_known := fun name among =>
      settled name (starts name (List.mem_append_left _ among)) ⟨_, among, trivial⟩
    moves_read := fun text among => read text (List.mem_append_left _ among)
    moves_known := by
      intro move among
      have used := exists_line_of_described among
      exact ⟨settled _ (known move among).1 used, settled _ (known move among).2 used⟩
    moves_agree := agree }

theorem states {names : List String} (coherent : Coherent truncate lines)
    (admissible : (Line.states names).Admissible truncate lines) :
    Coherent truncate (lines ++ [.states names]) := by
  rcases admissible with ⟨fits, distinct, fresh⟩
  rw [coherent_iff]
  simp only [declaredNames_concat, describedMoves_concat, Line.declared, Line.move?,
    Option.toList_none, List.append_nil]
  refine ⟨?_, ?_, ?_, ?_, ?_, coherent.moves_agree⟩
  · exact List.forall_mem_append.mpr ⟨coherent.fits, fits⟩
  · exact List.nodup_append.mpr ⟨coherent.distinct, distinct,
      fun old member new listed same => fresh new listed (same ▸ member)⟩
  · intro name among
    exact List.mem_append_left _ (coherent.starts_known name (by simpa using among))
  · exact fun text among => coherent.moves_read text (by simpa using among)
  · intro move among
    have known := coherent.moves_known move among
    exact ⟨List.mem_append_left _ known.1, List.mem_append_left _ known.2⟩

theorem of_move {text : List Char} (coherent : Coherent truncate (lines ++ [.move text])) :
    Coherent truncate lines ∧ (Line.move text).Admissible truncate lines := by
  have declared : declaredNames (lines ++ [.move text]) = declaredNames lines := by
    simp [Line.declared]
  rcases coherent.moves_read text (List.mem_append_right _ (by simp)) with ⟨move, read⟩
  have described : describedMoves truncate (lines ++ [.move text]) =
      describedMoves truncate lines ++ [move] := by
    simp [Line.move?, read, Except.toOption]
  have known := coherent.moves_known
  have agree := coherent.moves_agree
  rw [described] at known agree
  rw [declared] at known
  have last : move ∈ describedMoves truncate lines ++ [move] := by simp
  refine ⟨?_, move, read, (known move last).1, (known move last).2, fun earlier among =>
    agree move last earlier (List.mem_append_left _ among)⟩
  exact {
    fits := declared ▸ coherent.fits
    distinct := declared ▸ coherent.distinct
    starts_known := fun name among =>
      declared ▸ coherent.starts_known name (List.mem_append_left _ among)
    moves_read := fun earlier among => coherent.moves_read earlier (List.mem_append_left _ among)
    moves_known := fun earlier among => known earlier (List.mem_append_left _ among)
    moves_agree := fun first among second held =>
      agree first (List.mem_append_left _ among) second (List.mem_append_left _ held) }

theorem move {text : List Char} (coherent : Coherent truncate lines)
    (admissible : (Line.move text).Admissible truncate lines) :
    Coherent truncate (lines ++ [.move text]) := by
  rcases admissible with ⟨move, read, sourceKnown, targetKnown, agreed⟩
  have declared : declaredNames (lines ++ [.move text]) = declaredNames lines := by
    simp [Line.declared]
  have described : describedMoves truncate (lines ++ [.move text]) =
      describedMoves truncate lines ++ [move] := by
    simp [Line.move?, read, Except.toOption]
  rw [coherent_iff, declared, described]
  refine ⟨coherent.fits, coherent.distinct, ?_, ?_, ?_, ?_⟩
  · exact fun name among => coherent.starts_known name (by simpa using among)
  · intro given among
    rcases List.mem_append.mp among with earlier | last
    · exact coherent.moves_read given earlier
    · rcases Line.move.inj (List.mem_singleton.mp last) with rfl
      exact ⟨move, read⟩
  · exact List.forall_mem_append.mpr
      ⟨coherent.moves_known, List.forall_mem_singleton.mpr ⟨sourceKnown, targetKnown⟩⟩
  · simp only [List.mem_append, List.mem_singleton]
    rintro first (earlier | rfl) second (held | rfl) source symbol
    · exact coherent.moves_agree first earlier second held source symbol
    · exact (agreed first earlier source.symm symbol.symm).symm
    · exact agreed second held source symbol
    · rfl

end Coherent

/-- One more line fits with others exactly if it can come behind them. -/
theorem coherent_concat_iff (ordered : DeclaredFirst (lines ++ [line])) :
    Coherent truncate (lines ++ [line]) ↔
      Coherent truncate lines ∧ line.Admissible truncate lines := by
  cases line with
  | states names =>
    have unused := (declaredFirst_concat_iff.mp ordered).2
    exact ⟨Coherent.of_states unused, fun ⟨coherent, admissible⟩ => coherent.states admissible⟩
  | move text =>
    exact ⟨Coherent.of_move, fun ⟨coherent, admissible⟩ => coherent.move admissible⟩
  | start name =>
    simp [coherent_iff, Line.declared, Line.move?, Line.Admissible, or_imp, forall_and]
    tauto
  | _ => simp [coherent_iff, Line.declared, Line.move?, Line.Admissible]

/-- Lines that declare all names before they use any are taken one after
another exactly if they fit together. -/
theorem admissible_iff_coherent (ordered : DeclaredFirst lines) :
    Admissible truncate [] lines ↔ Coherent truncate lines := by
  induction lines using List.reverseRecOn with
  | nil => simp [Admissible, coherent_iff, declaredNames, describedMoves]
  | append_singleton front line inductionHypothesis =>
    rw [admissible_append_iff, coherent_concat_iff ordered,
      inductionHypothesis (declaredFirst_concat_iff.mp ordered).1]
    simp [Admissible]

/-- Where all names are declared before any is used, every list of accepting
states counts. -/
theorem flagged_iff (ordered : DeclaredFirst lines) : Flagged lines name ↔
    name ∈ declaredNames lines ∧ ∃ line ∈ lines, name ∈ line.accepted := by
  constructor
  · intro flagged
    refine ⟨declared_of_flagged flagged, ?_⟩
    rcases flagged with ⟨before, line, after, rfl, accepted, _⟩
    exact ⟨line, by simp, accepted⟩
  · rintro ⟨declared, line, among, accepted⟩
    rcases List.append_of_mem among with ⟨before, after, rfl⟩
    refine ⟨before, line, after, rfl, accepted, ?_⟩
    have uses : line.Uses ∧ line.declared = [] := by
      cases line with
      | accepting names => exact ⟨trivial, rfl⟩
      | _ => cases accepted
    rw [declaredNames, List.flatMap_append, List.flatMap_cons, uses.2, List.nil_append] at declared
    rcases List.mem_append.mp declared with above | below
    · exact above
    · rcases List.mem_flatMap.mp below with ⟨lower, held, declares⟩
      rw [DeclaredFirst, List.pairwise_append, List.pairwise_cons] at ordered
      exact absurd uses.1 (ordered.2.1.1 lower held (List.ne_nil_of_mem declares))

end Order

/-! ## Lines that say the same -/

/-- Lines declare, list and start the same, in the same order, and use the same
names, in any order. -/
structure SameParts (first second : List Line) : Prop where
  declared : declaredNames first = declaredNames second
  listed : listedSymbols first = listedSymbols second
  start : lastStart? first = lastStart? second
  used : ∀ line : Line, line.Uses → (line ∈ first ↔ line ∈ second)

namespace SameParts

variable {truncate : Bool} {first second : List Line}

theorem symm (parts : SameParts first second) : SameParts second first where
  declared := parts.declared.symm
  listed := parts.listed.symm
  start := parts.start.symm
  used := fun line uses => (parts.used line uses).symm

theorem mem_describedMoves_iff (parts : SameParts first second) {move : String × Char × String} :
    move ∈ describedMoves truncate first ↔ move ∈ describedMoves truncate second := by
  rw [describedMoves, describedMoves, List.mem_filterMap, List.mem_filterMap]
  refine exists_congr fun line => and_congr_left fun found => parts.used line ?_
  cases line with
  | move text => trivial
  | _ => cases found

theorem accepted_iff (parts : SameParts first second) {name : String} :
    (∃ line ∈ first, name ∈ line.accepted) ↔ ∃ line ∈ second, name ∈ line.accepted := by
  refine exists_congr fun line => and_congr_left fun accepted => parts.used line ?_
  cases line with
  | accepting names => trivial
  | _ => cases accepted

theorem coherent (parts : SameParts first second) (fit : Coherent truncate first) :
    Coherent truncate second where
  fits := parts.declared ▸ fit.fits
  distinct := parts.declared ▸ fit.distinct
  starts_known := fun name among =>
    parts.declared ▸ fit.starts_known name ((parts.used (.start name) trivial).mpr among)
  moves_read := fun text among => fit.moves_read text ((parts.used (.move text) trivial).mpr among)
  moves_known := fun move among =>
    parts.declared ▸ fit.moves_known move (parts.mem_describedMoves_iff.mpr among)
  moves_agree := fun move among other held =>
    fit.moves_agree move (parts.mem_describedMoves_iff.mpr among) other
      (parts.mem_describedMoves_iff.mpr held)

/-- Drafts of lines that say the same describe the same automaton, up to the
order of moves. -/
theorem automaton_same (parts : SameParts first second) (orderedFirst : DeclaredFirst first)
    (orderedSecond : DeclaredFirst second) {draft other : Draft}
    (recordedFirst : Recorded truncate first draft)
    (recordedSecond : Recorded truncate second other) :
    recordedFirst.proper.automaton.same recordedSecond.proper.automaton = true := by
  have names : draft.stateNames = other.stateNames := by
    rw [recordedFirst.names, recordedSecond.names, parts.declared]
  apply Automaton.same_of_transitions
  · rw [Draft.Proper.stateNames_automaton, Draft.Proper.stateNames_automaton, names]
  · change draft.alphabet = other.alphabet
    rw [recordedFirst.alphabet, recordedSecond.alphabet, parts.listed]
  · change draft.start = other.start
    rw [recordedFirst.start, recordedSecond.start, parts.start, names]
  · intro state member twin twinMember name
    have memberHere : state ∈ draft.states := member
    have twinHere : twin ∈ other.states := twinMember
    rw [Bool.eq_iff_iff, recordedFirst.accepting state memberHere,
      recordedSecond.accepting twin twinHere, flagged_iff orderedFirst,
      flagged_iff orderedSecond, parts.declared, parts.accepted_iff, name]
  · intro move
    rw [recordedFirst.mem_transitions_iff, recordedSecond.mem_transitions_iff,
      parts.mem_describedMoves_iff]

end SameParts

/-! ## Texts in another order -/

theorem valuesOf_linesOf (head : List Char) (lines : List (List Char)) :
    valuesOf head (linesOf head lines) = valuesOf head lines := by
  rw [valuesOf, linesOf, List.filterMap_filter, valuesOf]
  congr 1
  funext line
  by_cases begins : head <+: line
  · rw [if_pos (decide_eq_true begins)]
  · rw [if_neg (by simpa using begins), after?_eq_none_iff.mpr begins]

/-- What lines say in an order is the same if the lines that say it are. -/
theorem valuesOf_eq {head : List Char} {first second : List (List Char)}
    (same : linesOf head first = linesOf head second) :
    valuesOf head first = valuesOf head second := by
  rw [← valuesOf_linesOf, same, valuesOf_linesOf]

theorem uses_ofText_iff {line : List Char} : (Line.ofText line).Uses ↔ UsesNames line := by
  cases form line with
  | unknown plain =>
    rw [ofText_unknown plain]
    constructor
    · intro uses
      cases uses
    · rintro (begins | begins | begins)
      all_goals exact absurd ⟨_, by decide, begins⟩ plain
  | _ => simp (disch := decide) [not_prefix_of_apart, UsesNames, Line.Uses]

theorem declaredFirst_of_statesFirst {lines : List (List Char)} (ordered : StatesFirst lines) :
    DeclaredFirst (lines.map Line.ofText) := by
  refine List.pairwise_map.mpr (ordered.imp ?_)
  intro above below apart declares uses
  rcases List.exists_mem_of_ne_nil _ declares with ⟨name, declared⟩
  rcases exists_value (declared_ofText below ▸ declared) with ⟨value, rfl, _⟩
  exact apart (List.prefix_append statesHead value) (uses_ofText_iff.mp uses)

theorem Rearranged.mem_iff {first second : List (List Char)} (rearranged : Rearranged first second)
    {line : List Char} (uses : UsesNames line) : line ∈ first ↔ line ∈ second := by
  rcases uses with starts | other
  · have same : line ∈ linesOf startHead first ↔ line ∈ linesOf startHead second := by
      rw [rearranged.start]
    simpa [linesOf, starts] using same
  · have same := rearranged.others.mem_iff (a := line)
    simpa [other] using same

theorem Rearranged.sameParts {first second : List (List Char)}
    (rearranged : Rearranged first second) :
    SameParts (first.map Line.ofText) (second.map Line.ofText) where
  declared := by
    rw [declaredNames_ofText, declaredNames_ofText, valuesOf_eq rearranged.states]
  listed := by
    rw [listedSymbols_ofText, listedSymbols_ofText, valuesOf_eq rearranged.alphabet]
  start := by
    rw [lastStart?_ofText, lastStart?_ofText, valuesOf_eq rearranged.start]
  used := by
    intro line uses
    rw [List.mem_map, List.mem_map]
    refine exists_congr fun text => and_congr_left fun about => rearranged.mem_iff ?_
    exact uses_ofText_iff.mp (about ▸ uses)

/-! ## Reading in another order -/

/-- Specifications that declare all names before they use any, and that have
the same lines up to the order of the lines that use names, are both read, as
automata that are the same up to the order of moves, or both refused. -/
theorem read_rearranged (truncate : Bool) {first second : String}
    (orderedFirst : StatesFirst (strippedLines first))
    (orderedSecond : StatesFirst (strippedLines second))
    (rearranged : Rearranged (strippedLines first) (strippedLines second)) :
    (∃ automaton other, (read truncate first).result = .ok automaton ∧
      (read truncate second).result = .ok other ∧ automaton.same other = true) ∨
    ∃ fault other, (read truncate first).result = .error fault ∧
      (read truncate second).result = .error other := by
  have declaredFirst := declaredFirst_of_statesFirst orderedFirst
  have declaredSecond := declaredFirst_of_statesFirst orderedSecond
  have parts := rearranged.sameParts
  have together : (∃ automaton, (read truncate first).result = .ok automaton) ↔
      ∃ other, (read truncate second).result = .ok other := by
    rw [exists_read_iff, exists_read_iff, admissible_iff_coherent declaredFirst,
      admissible_iff_coherent declaredSecond]
    exact ⟨parts.coherent, parts.symm.coherent⟩
  cases found : (read truncate first).result with
  | ok automaton =>
    rcases together.mp ⟨automaton, found⟩ with ⟨other, readable⟩
    rcases recorded_of_read found with ⟨_, recordedFirst, _, rfl⟩
    rcases recorded_of_read readable with ⟨_, recordedSecond, _, rfl⟩
    exact .inl ⟨_, _, rfl, readable,
      parts.automaton_same declaredFirst declaredSecond recordedFirst recordedSecond⟩
  | error fault =>
    cases refused : (read truncate second).result with
    | ok other =>
      rcases together.mpr ⟨other, refused⟩ with ⟨automaton, readable⟩
      cases found.symm.trans readable
    | error other => exact .inr ⟨fault, other, rfl, rfl⟩

/-- Lines in the usual order. -/
def plainLines : String :=
  "alphabet=a
state=p
F=p
(p, a)->p
(p, b)->p"

/-- The same lines, mixed and with others between them. -/
def mixedLines : String :=
  "state=p
  (p, b)->p
# and back

(p, a)->p
F=p
\talphabet=a"

theorem read_rearranged_mixed :
    ∃ automaton other, (read false plainLines).result = .ok automaton ∧
      (read false mixedLines).result = .ok other ∧ automaton.same other = true ∧
        automaton ≠ other := by
  have plain : strippedLines plainLines =
      ["alphabet=a", "state=p", "F=p", "(p, a)->p", "(p, b)->p"].map String.toList := by
    decide +kernel
  have mixed : strippedLines mixedLines =
      ["state=p", "(p, b)->p", "# and back", "", "(p, a)->p", "F=p", "alphabet=a"].map
        String.toList := by
    decide +kernel
  have distinct : (read false plainLines).result ≠ (read false mixedLines).result := by
    decide +kernel
  have readable : (read false plainLines).result.toOption.isSome = true := by
    decide +kernel
  have orderedPlain : StatesFirst (strippedLines plainLines) := by rw [plain]; decide
  have orderedMixed : StatesFirst (strippedLines mixedLines) := by rw [mixed]; decide
  have rearranged : Rearranged (strippedLines plainLines) (strippedLines mixedLines) := by
    rw [plain, mixed]
    exact {
      states := by decide
      alphabet := by decide
      start := by decide
      others := by decide }
  rcases read_rearranged false orderedPlain orderedMixed rearranged with
    ⟨automaton, other, found, again, same⟩ | ⟨fault, _, refused, _⟩
  · refine ⟨automaton, other, found, again, same, ?_⟩
    rintro rfl
    exact distinct (found.trans again.symm)
  · rw [refused] at readable
    cases readable

end Specification
end FiniteAutomata
