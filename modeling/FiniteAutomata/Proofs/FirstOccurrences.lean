import Mathlib.Data.List.Induction
import Mathlib.Data.List.Nodup

namespace FiniteAutomata

/-!
# First occurrences

Without its repetitions a list keeps the first of equal entries.  One more
entry stands at the end, unless it is there already, and renaming entries apart
does not matter.
-/

variable {α β : Type} [BEq α] [LawfulBEq α] [BEq β] [LawfulBEq β]

theorem eraseDups_concat (values : List α) (value : α) :
    (values ++ [value]).eraseDups =
      if value ∈ values then values.eraseDups else values.eraseDups ++ [value] := by
  rw [List.eraseDups_append]
  by_cases known : value ∈ values
  · simp [known, List.removeAll]
  · simp [known, List.removeAll, List.eraseDups_cons]

theorem eraseDups_of_nodup {values : List α} (distinct : values.Nodup) :
    values.eraseDups = values := by
  induction values with
  | nil => rfl
  | cons value rest inductionHypothesis =>
    rcases List.nodup_cons.mp distinct with ⟨fresh, later⟩
    have kept : (rest.filter fun other => !other == value) = rest := by
      rw [List.filter_eq_self]
      intro other member
      simp only [Bool.not_eq_true', beq_eq_false_iff_ne, ne_eq]
      rintro rfl
      exact fresh member
    rw [List.eraseDups_cons, kept, inductionHypothesis later]

theorem nodup_eraseDups (values : List α) : values.eraseDups.Nodup := by
  induction values using List.reverseRecOn with
  | nil => exact List.nodup_nil
  | append_singleton earlier value inductionHypothesis =>
    rw [eraseDups_concat]
    split
    · exact inductionHypothesis
    · rename_i fresh
      simpa using inductionHypothesis.concat (by simpa using fresh)

/-- Renaming entries apart keeps their first occurrences. -/
theorem eraseDups_map_of_inj {rename : α → β} {values : List α}
    (injective : ∀ first ∈ values, ∀ second ∈ values, rename first = rename second →
      first = second) :
    (values.map rename).eraseDups = values.eraseDups.map rename := by
  induction values using List.reverseRecOn with
  | nil => rfl
  | append_singleton earlier value inductionHypothesis =>
    have before : ∀ first ∈ earlier, ∀ second ∈ earlier, rename first = rename second →
        first = second := fun first among second held =>
      injective first (List.mem_append_left _ among) second (List.mem_append_left _ held)
    have kept : rename value ∈ earlier.map rename ↔ value ∈ earlier := by
      refine ⟨fun among => ?_, List.mem_map_of_mem⟩
      rcases List.mem_map.mp among with ⟨other, held, same⟩
      exact injective other (List.mem_append_left _ held) value (by simp) same ▸ held
    rw [List.map_append, List.map_singleton, eraseDups_concat, eraseDups_concat,
      inductionHypothesis before]
    by_cases known : value ∈ earlier
    · rw [if_pos known, if_pos (kept.mpr known)]
    · rw [if_neg known, if_neg (mt kept.mp known), List.map_append, List.map_singleton]

theorem eraseDups_map {rename : α → β} (injective : Function.Injective rename) (values : List α) :
    (values.map rename).eraseDups = values.eraseDups.map rename :=
  eraseDups_map_of_inj fun _ _ _ _ same => injective same

end FiniteAutomata
