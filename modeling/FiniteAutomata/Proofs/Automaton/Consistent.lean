import FiniteAutomata.Proofs.Automaton.Traceless

namespace FiniteAutomata
namespace Fields

/-!
# Consistent fields

The six fields of a draft say one thing in several places.  A name stands among
the names and in the index, and with its position it also has a flag and a row
of moves; a target and the start are positions too.  Nothing but the order of
the writes keeps these places in step.

Whatever is asked of the fields, refused or not, they are the fields of a proper
draft, and those of a proper draft are consistent.  So none of the checks that
are made when an automaton is built can fail.
-/

/-- The fields fit together and describe an automaton. -/
structure Consistent (fields : Fields) : Prop where
  names_distinct : fields.names.Nodup
  names_checked : ∀ name ∈ fields.names, checkName name = .ok ()
  index_distinct : (Entries.keys fields.index).Nodup
  mem_index_iff : ∀ name position,
    (name, position) ∈ fields.index ↔ fields.names[position]? = some name
  flags_length : fields.flags.length = fields.names.length
  moves_length : fields.moves.length = fields.names.length
  alphabet_distinct : fields.alphabet.Nodup
  alphabet_single : ∀ text ∈ fields.alphabet, text.toList.length = 1
  keys_distinct : ∀ row ∈ fields.moves, (Entries.keys row).Nodup
  keys_single : ∀ row ∈ fields.moves, ∀ text ∈ Entries.keys row, text.toList.length = 1
  targets_inside : ∀ row ∈ fields.moves, ∀ move ∈ row, move.2 < fields.names.length
  start_inside : ∀ position, fields.start = some position → position < fields.names.length

/-- An automaton consists of what the fields hold. -/
structure Describes (fields : Fields) (automaton : Automaton) : Prop where
  names : automaton.stateNames = fields.names
  flags : automaton.states.map State.accepting = fields.flags
  moves : automaton.states.map row = fields.moves
  alphabet : automaton.alphabet.map String.singleton = fields.alphabet
  start : automaton.start = fields.start

/-! ## The fields of a proper draft -/

theorem length_of_mem_singletons {symbols : List Char} {text : String}
    (member : text ∈ symbols.map String.singleton) : text.toList.length = 1 := by
  rcases List.mem_map.mp member with ⟨symbol, _, rfl⟩
  rw [String.toList_singleton, List.length_singleton]

/-- The symbols in the row of a state are those of its moves. -/
theorem keys_row (state : State) :
    Entries.keys (row state) = (state.moves.map Prod.fst).map String.singleton := by
  rw [Entries.keys, row, List.map_map, List.map_map]
  rfl

variable {draft : Draft}

theorem consistent_of (proper : draft.Proper) : (of draft).Consistent where
  names_distinct := proper.names_distinct
  names_checked := fun name member => checkName_eq_ok_iff.mpr (proper.fits name member)
  index_distinct := by
    rw [keys_index]
    exact proper.names_distinct
  mem_index_iff := fun name position => List.mem_zipIdx_iff_getElem?
  flags_length := by simp [of, Draft.stateNames]
  moves_length := by simp [of, Draft.stateNames]
  alphabet_distinct := Candidate.nodup_singleton_of_nodup proper.sound.alphabet_distinct
  alphabet_single := fun text member => length_of_mem_singletons member
  keys_distinct := by
    intro moves member
    rcases List.mem_map.mp member with ⟨state, held, rfl⟩
    rw [keys_row]
    exact Candidate.nodup_singleton_of_nodup (proper.sound.symbols_distinct state held)
  keys_single := by
    intro moves member text key
    rcases List.mem_map.mp member with ⟨state, _, rfl⟩
    rw [keys_row] at key
    exact length_of_mem_singletons key
  targets_inside := by
    intro moves member move inside
    rcases List.mem_map.mp member with ⟨state, held, rfl⟩
    rcases List.mem_map.mp inside with ⟨kept, there, rfl⟩
    exact proper.targets_bound_names held kept there
  start_inside := by
    intro position started
    have bound := proper.sound.start_bound position started
    rwa [← List.length_map State.name] at bound

/-- The automaton that a proper draft is consists of what the fields of the
draft hold. -/
theorem describes_automaton (proper : draft.Proper) : (of draft).Describes proper.automaton where
  names := rfl
  flags := rfl
  moves := rfl
  alphabet := rfl
  start := rfl

/-- Building answers with the automaton and leaves the fields of the draft. -/
theorem respond_build (proper : draft.Proper) : (of draft).respond (.call .build) =
    (.ok (.automaton proper.automaton), of draft) := by
  have looks : Request.Looks (.call .build) := trivial
  rw [respond_of proper, Draft.outcome, Draft.next_of_looks looks, Draft.respond, proper.build]
  rfl

/-! ## After any requests -/

/-- Whatever was asked in whatever order, and whether or not it was refused, the
fields are consistent.  So building is never refused, and it gives the automaton
of just what the fields hold, which passes the check of candidates.  The draft
of the same calls is built to the same automaton. -/
theorem after_consistent (requests : List Request) :
    (empty.after requests).Consistent ∧
      ∃ automaton,
        (empty.after requests).respond (.call .build) =
            (.ok (.automaton automaton), empty.after requests) ∧
          (empty.after requests).Describes automaton ∧
          automaton.toCandidate.check = .ok automaton ∧
          (LooseDraft.empty.after (calls requests)).finish.result = .ok automaton := by
  have proper : (Draft.empty.after (calls requests)).Proper := Draft.Proper.empty.after _
  have held : empty.after requests = of (Draft.empty.after (calls requests)) :=
    after_of .empty requests
  have loose : LooseDraft.empty.after (calls requests) =
      (Draft.empty.after (calls requests)).loose :=
    LooseDraft.after_loose Draft.empty (calls requests)
  rw [held, loose]
  exact ⟨consistent_of proper, proper.automaton, respond_build proper, describes_automaton proper,
    proper.automaton.check_toCandidate, LooseDraft.result_finish_loose proper⟩

end Fields
end FiniteAutomata
