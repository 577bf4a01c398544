import FiniteAutomata.Proofs.Automaton.Reflected

namespace FiniteAutomata

/-!
# Moves in any order

A move that is given is compared with no more than the one move that the draft
holds for its source and symbol.  Still, what decides over a list of moves is
the list as a whole, together with the moves that are there: all of them are
taken if each leads between states with one symbol, and if no two of them
disagree about a target.  Nothing of this depends on their order.  So moves
that are all taken are taken in every order and however often, and the automata
that are built after them differ at most in the order of moves, which the
comparison of automata does not see.
-/

namespace Draft

/-- A move as it is asked for, with the names of its ends and with a text. -/
@[ext]
structure NamedMove where
  source : String
  text : String
  target : String
deriving DecidableEq

/-- The calls that ask for moves. -/
def moveCalls (moves : List NamedMove) : List Call :=
  moves.map fun move => .addMove move.source move.text move.target

/-- The moves that calls ask for. -/
def Call.namedMove? : Call → Option NamedMove
  | .addMove source text target => some ⟨source, text, target⟩
  | _ => none

/-- No two moves lead from one source with one text to two targets. -/
def Agree (moves : List NamedMove) : Prop :=
  ∀ first ∈ moves, ∀ second ∈ moves,
    first.source = second.source → first.text = second.text → first.target = second.target

theorem Agree.subset {before moves earlier fewer : List NamedMove} (agree : Agree (before ++ moves))
    (outside : earlier ⊆ before) (inside : fewer ⊆ moves) : Agree (earlier ++ fewer) := by
  have all : earlier ++ fewer ⊆ before ++ moves := List.append_subset.mpr
    ⟨List.subset_append_of_subset_left _ outside, List.subset_append_of_subset_right _ inside⟩
  exact fun first among second held => agree first (all among) second (all held)

/-! ## Moves among calls -/

section Calls

variable {history : List Call} {moves : List NamedMove}

theorem Call.namedMove?_eq_some_iff {call : Call} {move : NamedMove} :
    call.namedMove? = some move ↔ call = .addMove move.source move.text move.target := by
  cases call <;> simp [Call.namedMove?, NamedMove.ext_iff]

theorem mem_namedMoves_iff {move : NamedMove} : move ∈ history.filterMap Call.namedMove? ↔
    Call.addMove move.source move.text move.target ∈ history := by
  simp [List.mem_filterMap, Call.namedMove?_eq_some_iff]

theorem namedMoves_append : (history ++ moveCalls moves).filterMap Call.namedMove? =
    history.filterMap Call.namedMove? ++ moves := by
  rw [List.filterMap_append, moveCalls, List.filterMap_map]
  exact congrArg _ List.filterMap_some

theorem addMove_mem_iff {source text target : String} :
    Call.addMove source text target ∈ history ++ moveCalls moves ↔
      Call.addMove source text target ∈ history ∨ ⟨source, text, target⟩ ∈ moves := by
  rw [List.mem_append, moveCalls, List.mem_map]
  refine or_congr_right ⟨?_, fun among => ⟨_, among, rfl⟩⟩
  rintro ⟨move, among, same⟩
  cases same
  exact among

/-- Moves say nothing but moves. -/
theorem filterMap_append_moveCalls {α : Type} {part : Call → Option α}
    (silent : ∀ source text target, part (.addMove source text target) = none) :
    (history ++ moveCalls moves).filterMap part = history.filterMap part := by
  have none : (moveCalls moves).filterMap part = [] := by
    simp [moveCalls, silent]
  rw [List.filterMap_append, none, List.append_nil]

theorem last?_append_moveCalls {α : Type} {part : Call → Option α}
    (silent : ∀ source text target, part (.addMove source text target) = none) :
    last? part (history ++ moveCalls moves) = last? part history := by
  rw [last?, last?, filterMap_append_moveCalls silent]

end Calls

end Draft

/-- The transitions of an automaton, as they are asked for. -/
def Automaton.namedMoves (automaton : Automaton) : List Draft.NamedMove :=
  automaton.transitions.map fun move => ⟨move.1, String.singleton move.2.1, move.2.2⟩

/-- Moves that fit an automaton: each leads between states of it with one
symbol, and together with the transitions that are there they agree. -/
structure Automaton.Admits (automaton : Automaton) (moves : List Draft.NamedMove) : Prop where
  declared : ∀ move ∈ moves,
    move.source ∈ automaton.stateNames ∧ move.target ∈ automaton.stateNames
  single : ∀ move ∈ moves, ∃ symbol, move.text = String.singleton symbol
  agree : Draft.Agree (automaton.namedMoves ++ moves)

/-- Other moves fit as well if they are among those. -/
theorem Automaton.Admits.subset {automaton : Automaton} {moves fewer : List Draft.NamedMove}
    (admits : automaton.Admits moves) (inside : fewer ⊆ moves) : automaton.Admits fewer where
  declared move among := admits.declared move (inside among)
  single move among := admits.single move (inside among)
  agree := admits.agree.subset (fun _ among => among) inside

namespace Draft.Told

variable {history : List Call} {draft : Draft} {moves : List NamedMove}

/-! ## Which moves are taken -/

/-- The transitions are the moves that were asked for. -/
theorem mem_namedMoves_iff (told : Told history draft) {move : NamedMove} :
    move ∈ told.proper.automaton.namedMoves ↔ move ∈ history.filterMap Call.namedMove? := by
  rw [Draft.mem_namedMoves_iff, Automaton.namedMoves, List.mem_map]
  constructor
  · rintro ⟨⟨source, symbol, target⟩, transition, rfl⟩
    exact told.mem_transitions_iff.mp transition
  · intro held
    rcases told.moves_known _ _ _ held with ⟨symbol, single, _⟩
    refine ⟨(move.source, symbol, move.target), ?_, by rw [← single]⟩
    rw [told.mem_transitions_iff, ← single]
    exact held

theorem agree (told : Told history draft) : Agree (history.filterMap Call.namedMove?) := by
  intro first among second held source text
  rw [Draft.mem_namedMoves_iff] at among held
  rcases told.moves_known _ _ _ among with ⟨symbol, single, _⟩
  rw [single] at among text
  rw [← source, ← text] at held
  exact Automaton.target_eq_of_mem_transitions (told.mem_transitions_iff.mpr among)
    (told.mem_transitions_iff.mpr held) rfl rfl

/-- Moves change no names. -/
theorem names_of_moves {next : Draft} (told : Told history draft)
    (later : Told (history ++ moveCalls moves) next) : next.stateNames = draft.stateNames := by
  rw [later.names, filterMap_append_moveCalls (fun _ _ _ => rfl), told.names]

/-- A move is taken if it leads between states and if the moves before it do not
lead elsewhere. -/
theorem exists_addMove (told : Told history draft) {move : NamedMove}
    (declared : move.source ∈ draft.stateNames ∧ move.target ∈ draft.stateNames)
    (single : ∃ symbol, move.text = String.singleton symbol)
    (unopposed : ∀ other, Call.addMove move.source move.text other ∈ history →
      other = move.target) :
    ∃ next, draft.addMove move.source move.text move.target = .ok next := by
  rcases single with ⟨symbol, single⟩
  rw [single] at unopposed ⊢
  have free := (told.proper.unopposed_iff declared.1 declared.2).mpr
    fun other transition => unopposed other (told.mem_transitions_iff.mp transition)
  exact ⟨_, (addMove_eq_ok_iff told.proper.names_distinct).mpr
    ⟨symbol, rfl, declared.1, declared.2, free, rfl⟩⟩

/-- Moves that agree with the ones before them are all taken.  The induction is
on the moves that are still to come; those that were taken join the history. -/
theorem taken_of_agree (told : Told history draft)
    (declared : ∀ move ∈ moves, move.source ∈ draft.stateNames ∧ move.target ∈ draft.stateNames)
    (single : ∀ move ∈ moves, ∃ symbol, move.text = String.singleton symbol)
    (agree : Agree (history.filterMap Call.namedMove? ++ moves)) :
    draft.taken (moveCalls moves) = moveCalls moves := by
  induction moves generalizing history draft with
  | nil => rfl
  | cons move rest inductionHypothesis =>
    have among : move ∈ history.filterMap Call.namedMove? ++ move :: rest :=
      List.mem_append_right _ List.mem_cons_self
    have unopposed : ∀ other, Call.addMove move.source move.text other ∈ history →
        other = move.target := by
      intro other held
      have before : (⟨move.source, move.text, other⟩ : NamedMove) ∈
          history.filterMap Call.namedMove? := Draft.mem_namedMoves_iff.mpr held
      exact agree _ (List.mem_append_left _ before) _ among rfl rfl
    rcases told.exists_addMove (declared _ List.mem_cons_self) (single _ List.mem_cons_self)
      unopposed with ⟨next, added⟩
    have later : Told (history ++ moveCalls [move]) next := told.addMove added
    have names := told.names_of_moves later
    have others := inductionHypothesis later
      (fun move held => names ▸ declared move (List.mem_cons_of_mem _ held))
      (fun move held => single move (List.mem_cons_of_mem _ held))
      (by rwa [namedMoves_append, ← List.append_cons])
    have given : (Call.addMove move.source move.text move.target).run draft = .ok next := added
    rw [moveCalls, List.map_cons, taken, given]
    exact congrArg _ others

/-- Whether moves are all taken can be told from the automaton that the draft is
before them. -/
theorem taken_eq_iff (told : Told history draft) :
    draft.taken (moveCalls moves) = moveCalls moves ↔ told.proper.automaton.Admits moves := by
  constructor
  · intro all
    have later := told.after (moveCalls moves)
    rw [all] at later
    have known : ∀ move ∈ moves, ∃ symbol, move.text = String.singleton symbol ∧
        move.source ∈ draft.stateNames ∧ move.target ∈ draft.stateNames := by
      intro move among
      rw [← told.names_of_moves later]
      exact later.moves_known _ _ _ (List.mem_append_right _ (List.mem_map_of_mem among))
    have agree := later.agree
    rw [namedMoves_append] at agree
    exact {
      declared := fun move among => (known move among).elim fun _ said => said.2
      single := fun move among => (known move among).imp fun _ said => said.1
      agree := agree.subset (fun _ => told.mem_namedMoves_iff.mp) fun _ among => among }
  · intro admits
    exact told.taken_of_agree admits.declared admits.single
      (admits.agree.subset (fun _ => told.mem_namedMoves_iff.mpr) fun _ among => among)

/-! ## What is built of them -/

/-- Drafts that were told the same but for the order and the repetitions of their
last moves are the same automaton. -/
theorem automaton_same {others : List NamedMove} {other : Draft}
    (told : Told (history ++ moveCalls moves) draft)
    (twin : Told (history ++ moveCalls others) other) (equal : ∀ move, move ∈ others ↔ move ∈ moves) :
    told.proper.automaton.same twin.proper.automaton = true := by
  have names : draft.stateNames = other.stateNames := by
    rw [told.names, twin.names, filterMap_append_moveCalls (fun _ _ _ => rfl),
      filterMap_append_moveCalls (fun _ _ _ => rfl)]
  have begins : last? Call.startName? (history ++ moveCalls moves) =
      last? Call.startName? (history ++ moveCalls others) := by
    rw [last?_append_moveCalls (fun _ _ _ => rfl), last?_append_moveCalls (fun _ _ _ => rfl)]
  apply Automaton.same_of_transitions
  · exact names
  · change draft.alphabet = other.alphabet
    apply List.map_injective_iff.mpr fun _ _ => String.singleton_inj.mp
    rw [told.alphabet, twin.alphabet, filterMap_append_moveCalls (fun _ _ _ => rfl),
      filterMap_append_moveCalls (fun _ _ _ => rfl)]
  · rw [told.start_eq_bind, twin.start_eq_bind, begins]
    refine congrArg _ (funext fun name => ?_)
    change draft.indexOf? name = other.indexOf? name
    rw [indexOf?_eq_idxOf?, indexOf?_eq_idxOf?, names]
  · intro state member twinState twinMember name
    have flag := told.flags state member
    have twinFlag := twin.flags twinState twinMember
    rw [last?_append_moveCalls (fun _ _ _ => rfl)] at flag twinFlag
    rw [← name, flag] at twinFlag
    exact Option.some.inj twinFlag
  · rintro ⟨source, symbol, target⟩
    rw [told.mem_transitions_iff, twin.mem_transitions_iff, addMove_mem_iff, addMove_mem_iff, equal]

end Draft.Told

namespace LooseDraft

open Draft (NamedMove moveCalls)

/-- All of some moves are taken, one after another. -/
def TakesAll (loose : LooseDraft) (moves : List NamedMove) : Prop :=
  loose.taken (moveCalls moves) = moveCalls moves

instance (loose : LooseDraft) (moves : List NamedMove) : Decidable (loose.TakesAll moves) :=
  inferInstanceAs (Decidable (loose.taken (moveCalls moves) = moveCalls moves))

theorem takesAll_loose {draft : Draft} {moves : List NamedMove} :
    draft.loose.TakesAll moves ↔ draft.taken (moveCalls moves) = moveCalls moves := by
  rw [TakesAll, taken_loose]

/-- Whatever has been asked of a draft, moves are all taken exactly if each leads
between states with one symbol and if they and the transitions that are there
lead from no state with one symbol to two.  If they are, so are the same moves in
any other order and with any repetitions, and the automata that are built
afterwards are the same. -/
theorem moves_unordered (calls : List Draft.Call) (moves : List NamedMove) :
    ∃ automaton, (empty.after calls).finish.result = .ok automaton ∧
      ((empty.after calls).TakesAll moves ↔ automaton.Admits moves) ∧
      ((empty.after calls).TakesAll moves →
        ∀ others : List NamedMove, (∀ move, move ∈ others ↔ move ∈ moves) →
          (empty.after calls).TakesAll others ∧
          ∃ first second,
            ((empty.after calls).after (moveCalls moves)).finish.result = .ok first ∧
            ((empty.after calls).after (moveCalls others)).finish.result = .ok second ∧
            first.same second = true) := by
  have told := Draft.Told.empty.after calls
  rw [List.nil_append] at told
  have plain : empty.after calls = (Draft.empty.after calls).loose :=
    after_loose Draft.empty calls
  rw [plain]
  refine ⟨told.proper.automaton, result_finish_loose told.proper,
    takesAll_loose.trans told.taken_eq_iff, fun all others equal => ?_⟩
  have allOthers : (Draft.empty.after calls).loose.TakesAll others := by
    rw [takesAll_loose, told.taken_eq_iff] at all ⊢
    exact all.subset fun move => (equal move).mp
  have first := told.after (moveCalls moves)
  have second := told.after (moveCalls others)
  rw [takesAll_loose.mp all] at first
  rw [takesAll_loose.mp allOthers] at second
  refine ⟨allOthers, first.proper.automaton, second.proper.automaton, ?_, ?_,
    first.automaton_same second equal⟩
  · rw [after_loose]
    exact result_finish_loose first.proper
  · rw [after_loose]
    exact result_finish_loose second.proper

/-- Two states and a move to the first of them. -/
def returning : List Draft.Call :=
  [.addSymbol "x", .addState "p" true, .addState "q" false, .addMove "q" "y" "p"]

/-- Moves to both states, one of which is there already. -/
def crossing : List NamedMove :=
  [⟨"p", "x", "q"⟩, ⟨"q", "y", "p"⟩, ⟨"p", "y", "p"⟩]

/-- The same moves in another order, some of them repeated. -/
def crossingAgain : List NamedMove :=
  [⟨"p", "y", "p"⟩, ⟨"q", "y", "p"⟩, ⟨"p", "x", "q"⟩, ⟨"q", "y", "p"⟩, ⟨"p", "x", "q"⟩]

theorem moves_unordered_crossing :
    (∃ automaton, (empty.after returning).finish.result = .ok automaton ∧
      (¬ (empty.after returning).TakesAll [⟨"q", "y", "q"⟩] ∧
        ¬ automaton.Admits [⟨"q", "y", "q"⟩])) ∧
    (empty.after returning).TakesAll crossing ∧
    (∀ move, move ∈ crossingAgain ↔ move ∈ crossing) ∧
    (empty.after returning).TakesAll crossingAgain ∧
    ∃ first second,
      ((empty.after returning).after (moveCalls crossing)).finish.result = .ok first ∧
      ((empty.after returning).after (moveCalls crossingAgain)).finish.result = .ok second ∧
      first.same second = true := by
  have refused : ¬ (empty.after returning).TakesAll [⟨"q", "y", "q"⟩] := by decide +kernel
  have all : (empty.after returning).TakesAll crossing := by decide +kernel
  have equal : ∀ move, move ∈ crossingAgain ↔ move ∈ crossing := by
    intro move
    simp only [crossing, crossingAgain, List.mem_cons, List.not_mem_nil, or_false]
    tauto
  rcases moves_unordered returning [⟨"q", "y", "q"⟩] with ⟨automaton, built, admitted, _⟩
  rcases moves_unordered returning crossing with ⟨_, _, _, reordered⟩
  exact ⟨⟨automaton, built, refused, mt admitted.mpr refused⟩, all, equal,
    reordered all crossingAgain equal⟩

end LooseDraft
end FiniteAutomata
