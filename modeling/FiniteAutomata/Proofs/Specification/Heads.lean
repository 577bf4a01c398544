import FiniteAutomata.Proofs.Specification.Recorded

namespace FiniteAutomata
namespace Specification

/-!
# Beginnings of lines

What a line is about is decided by how it begins, and the beginnings exclude
each other.  So each part of a line can be read off the text behind the one
beginning that part belongs to, whatever the order in which the beginnings are
tried.
-/

open Text (after?)

/-! ## The forms of a line -/

/-- The beginnings of lines that say something. -/
def heads : List (List Char) :=
  [alphabetHead, statesHead, startHead, acceptingHead, ['(']]

/-- A line begins in a way that says something. -/
def Known (line : List Char) : Prop :=
  ∃ head ∈ heads, head <+: line

instance : DecidablePred Known := fun line =>
  List.decidableBEx (fun head => head <+: line) heads

/-- Every line has one of these forms. -/
inductive Form : List Char → Prop where
  | alphabet (value : List Char) : Form (alphabetHead ++ value)
  | states (value : List Char) : Form (statesHead ++ value)
  | start (value : List Char) : Form (startHead ++ value)
  | accepting (value : List Char) : Form (acceptingHead ++ value)
  | move (rest : List Char) : Form ('(' :: rest)
  | unknown {line : List Char} (plain : ¬ Known line) : Form line

theorem form (line : List Char) : Form line := by
  by_cases known : Known line
  · rcases known with ⟨head, among, value, rfl⟩
    simp only [heads, List.mem_cons, List.not_mem_nil, or_false] at among
    rcases among with rfl | rfl | rfl | rfl | rfl
    · exact .alphabet value
    · exact .states value
    · exact .start value
    · exact .accepting value
    · exact .move value
  · exact .unknown known

/-! ## What is behind a beginning -/

@[simp]
theorem after?_append (head value : List Char) : after? head (head ++ value) = some value :=
  Text.after?_eq_some_iff.mpr rfl

theorem after?_eq_none_iff {head line : List Char} : after? head line = none ↔ ¬ head <+: line := by
  rw [Option.eq_none_iff_forall_ne_some]
  constructor
  · rintro absent ⟨value, rfl⟩
    exact absent value (after?_append head value)
  · intro differs value found
    exact differs ⟨value, (Text.after?_eq_some_iff.mp found).symm⟩

/-- A text does not begin in two ways, unless one is the beginning of the
other. -/
theorem not_prefix_of_apart {head other : List Char} (apart : ¬ head <+: other ∧ ¬ other <+: head)
    (value : List Char) : ¬ head <+: other ++ value := by
  intro begins
  have front := List.prefix_append other value
  rcases List.prefix_or_prefix_of_prefix begins front with inside | inside
  · exact apart.1 inside
  · exact apart.2 inside

theorem after?_append_of_apart {head other : List Char}
    (apart : ¬ head <+: other ∧ ¬ other <+: head) (value : List Char) :
    after? head (other ++ value) = none :=
  after?_eq_none_iff.mpr (not_prefix_of_apart apart value)

theorem after?_parenthesis {head : List Char} (apart : ¬ head <+: ['('] ∧ ¬ ['('] <+: head)
    (rest : List Char) : after? head ('(' :: rest) = none :=
  after?_append_of_apart apart rest

theorem after?_unknown {line : List Char} (plain : ¬ Known line) {head : List Char}
    (among : head ∈ heads) : after? head line = none :=
  after?_eq_none_iff.mpr fun begins => plain ⟨head, among, begins⟩

/-! ## What each form is about -/

@[simp]
theorem ofText_alphabet (value : List Char) :
    Line.ofText (alphabetHead ++ value) = .alphabet (symbols value) := by
  unfold Line.ofText
  rw [after?_append]

@[simp]
theorem ofText_states (value : List Char) :
    Line.ofText (statesHead ++ value) = .states (names value) := by
  unfold Line.ofText
  rw [after?_append_of_apart (by decide), after?_append]

@[simp]
theorem ofText_start (value : List Char) :
    Line.ofText (startHead ++ value) = .start (String.ofList (Text.trimmed value)) := by
  unfold Line.ofText
  rw [after?_append_of_apart (by decide), after?_append_of_apart (by decide), after?_append]

@[simp]
theorem ofText_accepting (value : List Char) :
    Line.ofText (acceptingHead ++ value) = .accepting (names value) := by
  unfold Line.ofText
  rw [after?_append_of_apart (by decide), after?_append_of_apart (by decide),
    after?_append_of_apart (by decide), after?_append]

@[simp]
theorem ofText_move (rest : List Char) : Line.ofText ('(' :: rest) = .move ('(' :: rest) :=
  rfl

theorem ofText_unknown {line : List Char} (plain : ¬ Known line) : Line.ofText line = .other := by
  unfold Line.ofText
  rw [after?_unknown plain (by decide), after?_unknown plain (by decide),
    after?_unknown plain (by decide), after?_unknown plain (by decide)]
  dsimp only
  split
  · rename_i rest
    exact absurd ⟨['('], by decide, rest, rfl⟩ plain
  · rfl

theorem ofText_eq_move_iff {line text : List Char} :
    Line.ofText line = .move text ↔ text = line ∧ ['('] <+: line := by
  cases form line with
  | move rest => simp [eq_comm]
  | unknown plain =>
    have closed : ¬ ['('] <+: line := fun opens => plain ⟨['('], by decide, opens⟩
    simp [ofText_unknown plain, closed]
  | _ => simp (disch := decide) [not_prefix_of_apart]

/-! ## The parts of a line behind its beginning -/

/-- What is read behind a beginning is there only if the line begins so. -/
theorem exists_value {α : Type} {head line : List Char} {read : List Char → List α} {item : α}
    (inside : item ∈ ((after? head line).map read).getD []) :
    ∃ value, line = head ++ value ∧ item ∈ read value := by
  cases found : after? head line with
  | none =>
    rw [found] at inside
    cases inside
  | some value =>
    rw [found] at inside
    exact ⟨value, Text.after?_eq_some_iff.mp found, inside⟩

variable (truncate : Bool) (line : List Char)

theorem declared_ofText :
    (Line.ofText line).declared = ((after? statesHead line).map names).getD [] := by
  cases form line with
  | unknown plain =>
    simp (disch := decide) [ofText_unknown plain, after?_unknown plain, Line.declared]
  | _ => simp (disch := decide) [after?_append_of_apart, after?_parenthesis, Line.declared]

theorem listed_ofText :
    (Line.ofText line).listed = ((after? alphabetHead line).map symbols).getD [] := by
  cases form line with
  | unknown plain =>
    simp (disch := decide) [ofText_unknown plain, after?_unknown plain, Line.listed]
  | _ => simp (disch := decide) [after?_append_of_apart, after?_parenthesis, Line.listed]

theorem startName?_ofText : (Line.ofText line).startName? =
    (after? startHead line).map fun value => String.ofList (Text.trimmed value) := by
  cases form line with
  | unknown plain =>
    simp (disch := decide) [ofText_unknown plain, after?_unknown plain, Line.startName?]
  | _ => simp (disch := decide) [after?_append_of_apart, after?_parenthesis, Line.startName?]

theorem move?_ofText : (Line.ofText line).move? truncate =
    if ['('] <+: line then (readMove truncate line).toOption else none := by
  cases form line with
  | unknown plain =>
    have closed : ¬ ['('] <+: line := fun opens => plain ⟨['('], by decide, opens⟩
    simp [ofText_unknown plain, Line.move?, closed]
  | _ => simp (disch := decide) [not_prefix_of_apart, Line.move?]

end Specification
end FiniteAutomata
