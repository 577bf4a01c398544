import FiniteAutomata.Proofs.Automaton.DraftSteps

namespace FiniteAutomata
namespace Draft

/-!
# Refused steps

A step of a draft is refused for the first rule that it breaks, in a fixed
order: a state for its name and then for a state of that name, a start for a
state that is not there, and a move for its source, then for its target, and
then for another move of the source on the same symbol.  Every fault names
what is wrong, so that it is determined by the draft and the step.
-/

variable {draft : Draft} {fault : Fault}

theorem require_eq_error_iff {name : String} :
    draft.require name = .error fault ↔ name ∉ draft.stateNames ∧ fault = .missingState name := by
  unfold require
  by_cases known : name ∈ draft.stateNames
  · simp [indexOf?_of_mem known, known]
  · simp [indexOf?_eq_none_iff.mpr known, known, eq_comm]

theorem setStart_eq_error_iff {name : String} :
    draft.setStart name = .error fault ↔ name ∉ draft.stateNames ∧ fault = .missingState name := by
  rw [← require_eq_error_iff]
  unfold setStart
  cases draft.require name <;> simp

/-- A name cannot be added behind others: it does not pass, or it is one of
them. -/
inductive Unfit (taken : List String) (name : String) : Fault → Prop
  | unchecked {fault : Fault} (refused : checkName name = .error fault) : Unfit taken name fault
  | repeated (checked : checkName name = .ok ()) (known : name ∈ taken) :
      Unfit taken name (.repeatedState name)

theorem addState_eq_error_iff {name : String} {accepting : Bool} :
    draft.addState name accepting = .error fault ↔ Unfit draft.stateNames name fault := by
  unfold addState
  cases checked : checkName name with
  | error refusal =>
    constructor
    · rintro ⟨⟩
      exact .unchecked checked
    · rintro (refused | ⟨passed, _⟩)
      · cases checked.symm.trans refused
        rfl
      · cases checked.symm.trans passed
  | ok passed =>
    by_cases known : draft.hasState name = true
    · rw [if_pos known]
      constructor
      · rintro ⟨⟩
        exact .repeated checked (hasState_iff.mp known)
      · rintro (refused | _)
        · cases checked.symm.trans refused
        · rfl
    · rw [if_neg known]
      constructor
      · rintro ⟨⟩
      · rintro (refused | ⟨_, member⟩)
        · cases checked.symm.trans refused
        · exact absurd (hasState_iff.mpr member) known

/-- A symbol leads from the state of a name to a state other than the target. -/
structure Opposed (draft : Draft) (source : String) (symbol : Char) (target : String)
    (existing : Nat) : Prop where
  source_known : source ∈ draft.stateNames
  target_known : target ∈ draft.stateNames
  leads : ∃ state ∈ draft.states, state.name = source ∧ state.target? symbol = some existing
  differs : existing ≠ draft.stateNames.idxOf target

theorem addMove_eq_error_iff (distinct : draft.stateNames.Nodup) {source target : String}
    {symbol : Char} :
    draft.addMove source (String.singleton symbol) target = .error fault ↔
      (source ∉ draft.stateNames ∧ fault = .missingState source) ∨
        (source ∈ draft.stateNames ∧ target ∉ draft.stateNames ∧ fault = .missingTarget target) ∨
          ∃ existing, draft.Opposed source symbol target existing ∧
            fault = .conflictingMove source (String.singleton symbol) (draft.nameAt existing)
              target := by
  by_cases sourceKnown : source ∈ draft.stateNames
  · by_cases targetKnown : target ∈ draft.stateNames
    · rcases exists_state sourceKnown with ⟨state, member, rfl, held⟩
      rw [addMove_of_known symbol sourceKnown targetKnown held]
      have opposed : ∀ existing, draft.Opposed state.name symbol target existing ↔
          state.target? symbol = some existing ∧ existing ≠ draft.stateNames.idxOf target := by
        intro existing
        constructor
        · rintro ⟨_, _, ⟨other, otherMember, same, leads⟩, differs⟩
          rcases eq_of_name_eq distinct otherMember member same with rfl
          exact ⟨leads, differs⟩
        · rintro ⟨leads, differs⟩
          exact ⟨sourceKnown, targetKnown, ⟨state, member, rfl, leads⟩, differs⟩
      simp only [sourceKnown, targetKnown, not_true_eq_false, false_and, and_false, false_or,
        opposed]
      cases found : state.target? symbol with
      | none => simp
      | some existing =>
        by_cases same : existing = draft.stateNames.idxOf target
        · simp [same]
        · simp [same, eq_comm]
    · have required := require_eq_ok_iff.mpr ⟨sourceKnown, rfl⟩
      have missing := indexOf?_eq_none_iff.mpr targetKnown
      have unopposed : ∀ existing, ¬ draft.Opposed source symbol target existing :=
        fun _ opposed => targetKnown opposed.target_known
      simp [addMove, required, missing, sourceKnown, targetKnown, unopposed, eq_comm]
  · have missing := require_eq_error_iff.mpr ⟨sourceKnown, rfl⟩
    have unopposed : ∀ existing, ¬ draft.Opposed source symbol target existing :=
      fun _ opposed => sourceKnown opposed.source_known
    simp [addMove, missing, sourceKnown, unopposed, eq_comm]

end Draft
end FiniteAutomata
