import FiniteAutomata.Automaton.Record
import FiniteAutomata.Proofs.Json.ReadBack
import Mathlib.Data.Nat.Digits.Defs

namespace FiniteAutomata

/-!
# Automata in JSON

The record of an automaton converts to the automaton written back as a
candidate, and that candidate passes the check.  The record is legible, so an
automaton is read from its JSON text as itself: with its states, their flags,
the order of their moves, its alphabet and its start.
-/

/-! ## What is written converts back -/

namespace Conversion

variable {α β : Type}

/-- A list converts to the values that its items were written for. -/
theorem items_map {convert : Value → Converted β} {written : α → Value} {meant : α → β}
    {values : List α} (converts : ∀ value ∈ values, convert (written value) = .ok (meant value))
    (index : Nat) : items convert index (values.map written) = .ok (values.map meant) := by
  induction values generalizing index with
  | nil => rfl
  | cons value rest inductionHypothesis =>
    rcases List.forall_mem_cons.mp converts with ⟨first, others⟩
    rw [List.map_cons, items, first, inductionHypothesis others]
    rfl

/-- A map converts to the values that its members were written for. -/
theorem entries_map {convert : Value → Converted β} {key : α → String} {written : α → Value}
    {meant : α → β} {values : List α}
    (converts : ∀ value ∈ values, convert (written value) = .ok (meant value)) :
    entries convert (values.map fun value => (key value, written value)) =
      .ok (values.map fun value => (key value, meant value)) := by
  induction values with
  | nil => rfl
  | cons value rest inductionHypothesis =>
    rcases List.forall_mem_cons.mp converts with ⟨first, others⟩
    rw [List.map_cons, entries, first, inductionHypothesis others]
    rfl

/-- A field converts if the last member of its name does. -/
theorem field_of_member {convert : Value → Converted α} {members : List (String × Value)}
    {name : String} {value : Value} {result : α}
    (held : Value.member? name members = some value) (converts : convert value = .ok result) :
    field members name convert = .ok result := by
  rw [field, held]
  dsimp only
  rw [converts]
  rfl

theorem fieldOr_of_member {convert : Value → Converted α} {members : List (String × Value)}
    {name : String} {value : Value} {result : α} (default : α)
    (held : Value.member? name members = some value) (converts : convert value = .ok result) :
    fieldOr default members name convert = .ok result := by
  rw [fieldOr, held]
  dsimp only
  rw [converts]
  rfl

end Conversion

/-! ## Records -/

open Conversion (Form alone field_of_member fieldOr_of_member)

variable {form : Form} {members : List (String × Value)}

theorem CandidateState.ofMembers_eq_ok {state : CandidateState}
    (name : Conversion.field members "name" (fun value => alone (Conversion.text value)) =
      .ok state.name)
    (accepting : Conversion.fieldOr false members "is_accept"
      (fun value => alone (Conversion.flag value)) = .ok state.accepting)
    (moves : Conversion.fieldOr [] members "transitions"
      (Conversion.map form fun value => alone (Conversion.whole value)) = .ok state.moves) :
    CandidateState.ofMembers form members = .ok state := by
  rw [CandidateState.ofMembers, name, accepting, moves]
  rfl

theorem Candidate.ofMembers_eq_ok {candidate : Candidate}
    (states : Conversion.fieldOr [] members "states"
      (Conversion.list form (CandidateState.ofValue form)) = .ok candidate.states)
    (alphabet : Conversion.fieldOr [] members "alphabet"
      (Conversion.list form fun value => alone (Conversion.text value)) = .ok candidate.alphabet)
    (start : Conversion.fieldOr none members "start"
      (Conversion.optional fun value => alone (Conversion.whole value)) = .ok candidate.start) :
    Candidate.ofMembers form members = .ok candidate := by
  rw [Candidate.ofMembers, Candidate.frameOfMembers, states, alphabet, start]
  rfl

namespace Automaton

theorem ofValue_stateValue (state : State) :
    CandidateState.ofValue .json (stateValue state) = .ok state.toCandidate := by
  have moves : Conversion.map .json (fun value => alone (Conversion.whole value))
      (.object (state.moves.map fun move => (String.singleton move.1, positionValue move.2))) =
        .ok state.toCandidate.moves :=
    Conversion.entries_map fun _ _ => rfl
  exact CandidateState.ofMembers_eq_ok (field_of_member rfl rfl) (fieldOr_of_member false rfl rfl)
    (fieldOr_of_member [] rfl moves)

theorem toValue_eq (automaton : Automaton) : automaton.toValue =
    .object
      [("states", .list (automaton.states.map stateValue)),
        ("alphabet", .list (automaton.alphabet.map fun symbol => .string (String.singleton symbol))),
        ("start", automaton.start.elim .null positionValue)] := by
  unfold toValue
  cases automaton.start <;> rfl

/-- The record of an automaton is the automaton as a candidate. -/
theorem ofValue_toValue (automaton : Automaton) :
    Candidate.ofValue .json automaton.toValue = .ok automaton.toCandidate := by
  have states : Conversion.list .json (CandidateState.ofValue .json)
      (.list (automaton.states.map stateValue)) = .ok automaton.toCandidate.states :=
    Conversion.items_map (fun state _ => ofValue_stateValue state) 0
  have symbols : ∀ symbol ∈ automaton.alphabet, alone (Conversion.text
      (.string (String.singleton symbol))) = .ok (String.singleton symbol) := fun _ _ => rfl
  have alphabet : Conversion.list .json (fun value => alone (Conversion.text value))
      (.list (automaton.alphabet.map fun symbol => .string (String.singleton symbol))) =
        .ok automaton.toCandidate.alphabet :=
    Conversion.items_map symbols 0
  have start : Conversion.optional (fun value => alone (Conversion.whole value))
      (automaton.start.elim .null positionValue) =
        .ok automaton.toCandidate.start := by
    rw [toCandidate]
    cases automaton.start with
    | none => rfl
    | some index => rfl
  rw [toValue_eq]
  exact Candidate.ofMembers_eq_ok (fieldOr_of_member [] rfl states)
    (fieldOr_of_member [] rfl alphabet) (fieldOr_of_member none rfl start)

/-! ## The record is legible -/

open Json (Legible)
open Text (digitLimit)

/-- A position below the bound has few enough digits. -/
theorem legible_positionValue (depth : Nat) {index : Nat} (small : index < 10 ^ digitLimit) :
    Legible digitLimit depth (positionValue index) :=
  .int depth (Nat.toDigits_length 10 index digitLimit (by decide) small)

theorem legible_stateValue {state : State} (small : ∀ move ∈ state.moves, move.2 < 10 ^ digitLimit)
    (depth : Nat) : Legible digitLimit (depth + 2) (stateValue state) := by
  have moves : Legible digitLimit (depth + 1) (.object
      (state.moves.map fun move => (String.singleton move.1, positionValue move.2))) := by
    apply Legible.object
    intro member held
    rcases List.mem_map.mp held with ⟨move, inside, rfl⟩
    exact legible_positionValue depth (small move inside)
  apply Legible.object
  simp only [List.forall_mem_cons]
  exact ⟨.string _ _, .bool _ _, moves, List.forall_mem_nil _⟩

/-- A record nests its states, their moves and its alphabet. -/
theorem legible_toValue {automaton : Automaton} (small : automaton.states.length ≤ 10 ^ digitLimit)
    (depth : Nat) : Legible digitLimit (depth + 4) automaton.toValue := by
  have states : Legible digitLimit (depth + 3) (.list (automaton.states.map stateValue)) := by
    apply Legible.list
    intro item held
    rcases List.mem_map.mp held with ⟨state, inside, rfl⟩
    exact legible_stateValue (fun move member =>
      (automaton.sound.targets_bound state inside move member).trans_le small) depth
  have alphabet : Legible digitLimit (depth + 3)
      (.list (automaton.alphabet.map fun symbol => .string (String.singleton symbol))) := by
    apply Legible.list
    intro item held
    rcases List.mem_map.mp held with ⟨symbol, _, rfl⟩
    exact .string _ _
  have start : Legible digitLimit (depth + 3)
      (automaton.start.elim .null positionValue) := by
    cases held : automaton.start with
    | none => exact .null _
    | some index =>
      exact legible_positionValue _ ((automaton.sound.start_bound index held).trans_le small)
  rw [toValue_eq]
  apply Legible.object
  simp only [List.forall_mem_cons]
  exact ⟨states, alphabet, start, List.forall_mem_nil _⟩

/-! ## The round trip -/

/-- An automaton is read from the JSON text that is written of it.  Its names
and symbols may be any characters.  The bound, beyond which a position would be
a number too long to be read, is no condition on automata that a machine can
hold: their positions are below `positionBound`. -/
theorem ofJson_toJson {automaton : Automaton}
    (held : automaton.states.length ≤ 10 ^ digitLimit) :
    ofJson automaton.toJson = .ok automaton := by
  rw [ofJson, toJson, Json.read?_write (legible_toValue held _)]
  simp only [ofValue_toValue, Candidate.conclude, check_toCandidate]

/-- A name with a quote, a backslash, a control, the delete control and a
character beyond the first plane, and symbols of these kinds. -/
def awkward : Automaton where
  states := [⟨"a\"\\\n\x7f😀", true, [('"', 1), ('\\', 0), ('\x00', 0)]⟩, ⟨" ", false, []⟩]
  alphabet := ['\x1f', '\x7f', '😀']
  start := none
  sound :=
    { names_nonempty := by decide
      names_distinct := by decide
      alphabet_distinct := by decide
      start_bound := by simp
      symbols_distinct := by decide
      targets_bound := by decide }

theorem ofJson_toJson_awkward : awkward.states.length ≤ 10 ^ digitLimit ∧
    ofJson awkward.toJson = .ok awkward := by
  have small : awkward.states.length ≤ 10 ^ digitLimit := by
    calc awkward.states.length ≤ 10 := by decide
      _ ≤ 10 ^ digitLimit := Nat.le_self_pow (by decide) 10
  exact ⟨small, ofJson_toJson small⟩

end Automaton
end FiniteAutomata
