import FiniteAutomata.Proofs.Automaton.AllTaken

namespace FiniteAutomata

/-!
# Automata from tables

A table is built with one call for each of its entries, all of which have to be
taken.  So what is built has just the states, the symbols, the edges, the start
and the accepting states that the table names.  A table that describes an
automaton with fitting names is built, and to the same automaton: neither the
order of rows and cells nor that and how often accepting states are named plays
a part.
-/

open Draft (Call NamedMove Told moveCalls last?)

namespace Table

/-! ## What a table says -/

/-- Where a table leads from a state with a symbol.  Where a key recurs its last
value counts. -/
def target? (table : Table) (source text : String) : Option String :=
  (table.rows.reverse.lookup source).bind fun cells => cells.reverse.lookup text

/-- What a table says is what an automaton is by its names: the same states and
symbols in the same order, the same edges, and the same start and accepting
states. -/
structure Describes (table : Table) (automaton : Automaton) : Prop where
  states : automaton.stateNames = table.states
  alphabet : automaton.alphabet.map String.singleton = table.alphabet
  edges : ∀ source text target, table.target? source text = some target ↔
    ∃ symbol, text = String.singleton symbol ∧ (source, symbol, target) ∈ automaton.transitions
  start : automaton.startState?.map State.name = some table.start
  accepting : ∀ name, name ∈ table.accepting ↔ name ∈ automaton.acceptingStates.map State.name

theorem mem_moves_iff {table : Table} {source text target : String} :
    (source, text, target) ∈ table.moves ↔ table.target? source text = some target := by
  simp only [moves, target?, List.mem_flatMap, List.mem_map, Option.bind_eq_some_iff]
  constructor
  · rintro ⟨row, rowHeld, cell, cellHeld, same⟩
    cases same
    exact ⟨row.2, Entries.mem_collapse_iff.mp rowHeld, Entries.mem_collapse_iff.mp cellHeld⟩
  · rintro ⟨cells, rowFound, cellFound⟩
    exact ⟨(source, cells), Entries.mem_collapse_iff.mpr rowFound, (text, target),
      Entries.mem_collapse_iff.mpr cellFound, rfl⟩

/-! ## Tables as calls -/

variable (table : Table)

/-- The calls for everything that comes before the moves. -/
def declarations : List Call :=
  table.alphabet.map Call.addSymbol ++ (table.states.map fun name => .addState name false) ++
    table.accepting.map fun name => .setAccepting name true

def namedMoves : List NamedMove :=
  table.moves.map fun move => ⟨move.1, move.2.1, move.2.2⟩

/-- A table leads from no state with one text to two targets. -/
theorem agree_namedMoves : Draft.Agree table.namedMoves := by
  intro first among second held sources texts
  rcases List.mem_map.mp among with ⟨⟨source, text, target⟩, firstMove, rfl⟩
  rcases List.mem_map.mp held with ⟨⟨_, _, other⟩, secondMove, rfl⟩
  cases sources
  cases texts
  exact Option.some.inj ((mem_moves_iff.mp firstMove).symm.trans (mem_moves_iff.mp secondMove))

/-- The calls that build a table. -/
def calls : List Call :=
  table.declarations ++ moveCalls table.namedMoves ++ [.setStart table.start]

/-! ## A table is built by its calls -/

theorem declared_eq : table.declared = Draft.empty.runAll table.declarations := by
  have inTurn : table.declared = ((each Draft.addSymbol Draft.empty table.alphabet).bind
      fun draft => each (fun draft name => draft.addState name false) draft table.states).bind
        fun draft => each (fun draft name => draft.setAccepting name true) draft
          table.accepting := by
    unfold declared
    cases each Draft.addSymbol Draft.empty table.alphabet with
    | error fault => rfl
    | ok withSymbols =>
      dsimp only [Except.bind]
      cases each (fun draft name => draft.addState name false) withSymbols table.states <;> rfl
  rw [inTurn]
  simp only [Draft.runAll, declarations, each_append, each_map]
  rfl

theorem result_andThen {ε α β : Type} (first : Log.Reported ε α) (next : α → Log.Reported ε β) :
    (first.andThen next).result = first.result.bind fun value => (next value).result := by
  unfold Log.Reported.andThen
  cases first.result <;> rfl

theorem addMoves_result (draft : Draft) (moves : List (String × String × String)) :
    (addMoves draft moves).result =
      draft.runAll (moveCalls (moves.map fun move => ⟨move.1, move.2.1, move.2.2⟩)) := by
  induction moves generalizing draft with
  | nil => rfl
  | cons move rest inductionHypothesis =>
    rcases move with ⟨source, text, target⟩
    rw [addMoves, result_andThen, Draft.move_result]
    simp only [inductionHypothesis]
    exact (Draft.runAll_cons draft (.addMove source text target) _).symm

theorem result_finish (draft : Draft) : draft.finish.result = draft.build := by
  unfold Draft.finish
  cases draft.build <;> rfl

theorem build_result :
    table.build.result = (Draft.empty.runAll table.calls).bind Draft.build := by
  unfold build calls
  rw [result_andThen, Draft.runAll_append, Draft.runAll_append, ← declared_eq]
  simp only [result_andThen, addMoves_result, Log.Reported.silent, result_finish,
    Draft.runAll_setStart]
  cases table.declared with
  | error fault => rfl
  | ok draft =>
    change ((draft.runAll _).bind fun next => (next.setStart table.start).bind _) =
      ((draft.runAll (moveCalls table.namedMoves)).bind _).bind _
    rw [namedMoves]
    cases draft.runAll (moveCalls _) <;> rfl

/-! ## What the calls say -/

theorem names_calls : table.calls.filterMap Call.stateName? = table.states := by
  simp [calls, declarations, moveCalls, List.filterMap_map, Function.comp_def, Call.stateName?]

theorem symbols_calls : table.calls.filterMap Call.symbolText? = table.alphabet := by
  simp [calls, declarations, moveCalls, List.filterMap_map, Function.comp_def, Call.symbolText?]

theorem start_calls : last? Call.startName? table.calls = some table.start := by
  rw [calls, Draft.last?_concat]
  rfl

theorem addMove_mem_calls {source text target : String} :
    Call.addMove source text target ∈ table.calls ↔ (source, text, target) ∈ table.moves := by
  simp [calls, declarations, moveCalls, namedMoves]

/-- A state is accepting if the table names it as accepting, and otherwise it is
not, as it was added. -/
theorem flags_calls (name : String) : last? (Call.flagFor? name) table.calls =
    if name ∈ table.accepting then some true
    else if name ∈ table.states then some false else none := by
  have accepting : last? (Call.flagFor? name)
      (table.accepting.map fun other => .setAccepting other true) =
        if name ∈ table.accepting then some true else none :=
    Draft.last?_map (fun _ => rfl) table.accepting
  have states : last? (Call.flagFor? name) (table.states.map fun other => .addState other false) =
      if name ∈ table.states then some false else none :=
    Draft.last?_map (fun _ => rfl) table.states
  have symbols : last? (Call.flagFor? name) (table.alphabet.map Call.addSymbol) = none := by
    simp [last?, List.filterMap_map, Function.comp_def, Call.flagFor?]
  rw [calls, Draft.last?_concat, Draft.last?_append_moveCalls (fun _ _ _ => rfl), declarations,
    Draft.last?_append, Draft.last?_append, accepting, states, symbols]
  by_cases listed : name ∈ table.accepting <;> simp [listed, Call.flagFor?]

/-! ## What is built is what the table says -/

variable {table} {automaton : Automaton} {draft : Draft}

/-- Only states can be named as accepting. -/
theorem accepting_known (all : Draft.empty.runAll table.calls = .ok draft) :
    ∀ name ∈ table.accepting, name ∈ table.states := by
  intro name listed
  have member : Call.setAccepting name true ∈ table.calls := by
    simp [calls, declarations, listed]
  rcases Draft.exists_run_of_mem all member with ⟨front, middle, after, inside, told, taken⟩
  have known : name ∈ middle.stateNames :=
    ((Draft.setAccepting_eq_ok_iff told.proper.names_distinct).mp taken).1
  rw [told.names] at known
  rw [← table.names_calls]
  rcases List.mem_filterMap.mp known with ⟨call, held, said⟩
  exact List.mem_filterMap.mpr ⟨call, inside held, said⟩

theorem describes_of_told (told : Told table.calls draft)
    (known : ∀ name ∈ table.accepting, name ∈ table.states) :
    table.Describes told.proper.automaton := by
  have states : told.proper.automaton.stateNames = table.states :=
    told.names.trans table.names_calls
  have flag : ∀ state ∈ told.proper.automaton.states,
      (state.accepting = true ↔ state.name ∈ table.accepting) := by
    intro state member
    have given := told.flags state member
    have declared : state.name ∈ table.states := states ▸ Automaton.name_mem_stateNames member
    rw [flags_calls, if_pos declared] at given
    by_cases listed : state.name ∈ table.accepting
    · rw [if_pos listed] at given
      simp [listed, ← Option.some.inj given]
    · rw [if_neg listed] at given
      simp [listed, ← Option.some.inj given]
  refine {
    states := states
    alphabet := told.alphabet.trans table.symbols_calls
    edges := ?_
    start := told.reflects.started.trans table.start_calls
    accepting := ?_ }
  · intro source text target
    rw [← mem_moves_iff, ← addMove_mem_calls]
    constructor
    · intro held
      rcases told.moves_known source text target held with ⟨symbol, rfl, _⟩
      exact ⟨symbol, rfl, told.mem_transitions_iff.mpr held⟩
    · rintro ⟨symbol, rfl, transition⟩
      exact told.mem_transitions_iff.mp transition
  · intro name
    simp only [Automaton.acceptingStates, List.mem_map, List.mem_filter]
    constructor
    · intro listed
      have declared : name ∈ told.proper.automaton.stateNames := states ▸ known name listed
      rcases List.mem_map.mp declared with ⟨state, member, rfl⟩
      exact ⟨state, ⟨member, (flag state member).mpr listed⟩, rfl⟩
    · rintro ⟨state, ⟨member, accepting⟩, rfl⟩
      exact (flag state member).mp accepting

/-- Whatever is built of a table is what the table says. -/
theorem describes_of_build (built : table.build.result = .ok automaton) :
    table.Describes automaton := by
  rw [build_result, bind_eq_ok_iff] at built
  rcases built with ⟨draft, all, whole⟩
  have told := Draft.told_of_runAll all
  rw [told.proper.build] at whole
  cases whole
  exact describes_of_told told (accepting_known all)

/-! ## Automata with fitting names are built -/

namespace Describes

variable (describes : table.Describes automaton)
include describes

theorem accepting_known : ∀ name ∈ table.accepting, name ∈ table.states := by
  intro name listed
  rcases List.mem_map.mp ((describes.accepting name).mp listed) with ⟨state, held, rfl⟩
  rw [← describes.states]
  exact Automaton.name_mem_stateNames (List.mem_of_mem_filter held)

theorem start_known : table.start ∈ table.states := by
  rcases Option.map_eq_some_iff.mp describes.start with ⟨state, begins, name⟩
  rw [← name, ← describes.states]
  exact Automaton.name_mem_stateNames (Automaton.mem_states_of_startState? begins)

theorem moves_known : ∀ move ∈ table.namedMoves,
    (move.source ∈ table.states ∧ move.target ∈ table.states) ∧
      ∃ symbol, move.text = String.singleton symbol := by
  intro move among
  rcases List.mem_map.mp among with ⟨⟨source, text, target⟩, held, rfl⟩
  rcases (describes.edges source text target).mp (mem_moves_iff.mp held) with
    ⟨symbol, single, transition⟩
  rw [← describes.states]
  exact ⟨Automaton.names_of_mem_transitions transition, symbol, single⟩

/-- The declarations of a table are all taken. -/
theorem exists_declared (fits : ∀ name ∈ automaton.stateNames, checkName name = .ok ()) :
    ∃ draft, Draft.empty.runAll table.declarations = .ok draft := by
  have symbols : table.alphabet.map Call.addSymbol =
      automaton.alphabet.map fun symbol => .addSymbol (String.singleton symbol) := by
    rw [← describes.alphabet, List.map_map]
    rfl
  have withSymbols : Draft.empty.runAll (table.alphabet.map Call.addSymbol) =
      .ok { Draft.empty with alphabet := automaton.alphabet } := by
    rw [symbols]
    exact Draft.runAll_addSymbol automaton.sound.alphabet_distinct
  have distinct : table.states.Nodup := describes.states ▸ automaton.sound.names_distinct
  obtain ⟨withStates, states⟩ : ∃ next,
      ({ Draft.empty with alphabet := automaton.alphabet } : Draft).runAll
        (table.states.map fun name => .addState name false) = .ok next := by
    apply Draft.exists_runAll_addState
    · rw [← describes.states]
      exact fun name member => checkName_eq_ok_iff.mp (fits name member)
    · exact distinct
  have both := Draft.runAll_append_eq_ok_iff.mpr ⟨_, withSymbols, states⟩
  have told := Draft.told_of_runAll both
  have names : withStates.stateNames = table.states := by
    rw [told.names]
    simp [List.filterMap_map, Function.comp_def, Call.stateName?]
  obtain ⟨next, accepting⟩ := Draft.exists_runAll_setAccepting told.proper.names_distinct
    (names.symm ▸ describes.accepting_known)
  exact ⟨next, Draft.runAll_append_eq_ok_iff.mpr ⟨_, both, accepting⟩⟩

/-- The calls of a table are all taken, its moves since they lead between its
states and no two of them disagree. -/
theorem exists_runAll (fits : ∀ name ∈ automaton.stateNames, checkName name = .ok ()) :
    ∃ draft, Draft.empty.runAll table.calls = .ok draft := by
  rcases describes.exists_declared fits with ⟨declared, declares⟩
  have told := Draft.told_of_runAll declares
  have names : declared.stateNames = table.states := by
    rw [told.names]
    simp [declarations, List.filterMap_map, Function.comp_def, Call.stateName?]
  have unmoved : table.declarations.filterMap Call.namedMove? = [] := by
    simp [declarations, List.filterMap_map, Function.comp_def, Call.namedMove?]
  have agree : Draft.Agree (table.declarations.filterMap Call.namedMove? ++ table.namedMoves) := by
    rw [unmoved, List.nil_append]
    exact table.agree_namedMoves
  have moves := Draft.runAll_of_taken (told.taken_of_agree
    (fun move among => names.symm ▸ (describes.moves_known move among).1)
    (fun move among => (describes.moves_known move among).2) agree)
  have both := Draft.runAll_append_eq_ok_iff.mpr ⟨_, declares, moves⟩
  have later := Draft.told_of_runAll both
  have known : table.start ∈ (declared.after (moveCalls table.namedMoves)).stateNames := by
    rw [told.names_of_moves later, names]
    exact describes.start_known
  have start := (Draft.runAll_setStart _ _).trans (Draft.setStart_eq_ok_iff.mpr ⟨known, rfl⟩)
  exact ⟨_, Draft.runAll_append_eq_ok_iff.mpr ⟨_, both, start⟩⟩

theorem accepting_iff {state : State} (member : state ∈ automaton.states) :
    state.accepting = true ↔ state.name ∈ table.accepting := by
  rw [describes.accepting]
  constructor
  · exact fun accepting => List.mem_map_of_mem (List.mem_filter.mpr ⟨member, accepting⟩)
  · intro listed
    rcases List.mem_map.mp listed with ⟨other, held, name⟩
    rcases List.mem_filter.mp held with ⟨otherMember, accepting⟩
    exact Automaton.eq_of_name_eq otherMember member name ▸ accepting

theorem exists_start : ∃ index, automaton.start = some index ∧
    table.states[index]? = some table.start := by
  have begins := describes.start
  rw [Automaton.startState?] at begins
  cases position : automaton.start with
  | none =>
    rw [position] at begins
    cases begins
  | some index =>
    rw [position, Option.bind_some, ← List.getElem?_map] at begins
    exact ⟨index, rfl, describes.states ▸ begins⟩

theorem mem_transitions_iff {source target : String} {symbol : Char} :
    (source, symbol, target) ∈ automaton.transitions ↔
      table.target? source (String.singleton symbol) = some target := by
  rw [describes.edges]
  constructor
  · exact fun transition => ⟨symbol, rfl, transition⟩
  · rintro ⟨other, single, transition⟩
    rwa [String.singleton_inj.mp single]

/-- A table describes at most one automaton, but for the order in which states
hold their moves. -/
theorem same {other : Automaton} (others : table.Describes other) :
    automaton.same other = true := by
  apply Automaton.same_of_transitions
  · rw [describes.states, others.states]
  · apply List.map_injective_iff.mpr fun _ _ => String.singleton_inj.mp
    rw [describes.alphabet, others.alphabet]
  · rcases describes.exists_start with ⟨index, start, entry⟩
    rcases others.exists_start with ⟨twin, twinStart, twinEntry⟩
    have distinct : table.states.Nodup := describes.states ▸ automaton.sound.names_distinct
    have inside := (List.getElem?_eq_some_iff.mp entry).1
    have same := (List.getElem?_inj inside distinct).mp (entry.trans twinEntry.symm)
    rw [start, twinStart, same]
  · intro state member twin twinMember name
    rw [Bool.eq_iff_iff, describes.accepting_iff member, others.accepting_iff twinMember, name]
  · rintro ⟨source, symbol, target⟩
    rw [describes.mem_transitions_iff, others.mem_transitions_iff]

end Describes

/-- The table of an automaton, with the name of its start. -/
def ofAutomaton (automaton : Automaton) (start : String) : Table where
  states := automaton.stateNames
  alphabet := automaton.alphabet.map String.singleton
  rows := automaton.states.map fun state => (state.name,
    (state.named automaton.stateNames).map fun move => (String.singleton move.1, move.2))
  start := start
  accepting := automaton.acceptingStates.map State.name

/-- No key recurs among the rows or within one, as in maps. -/
structure Keyed (table : Table) : Prop where
  rows : (Entries.keys table.rows).Nodup
  cells : ∀ row ∈ table.rows, (Entries.keys row.2).Nodup

theorem keyed_ofAutomaton (automaton : Automaton) (start : String) :
    (ofAutomaton automaton start).Keyed where
  rows := by
    rw [Entries.keys, ofAutomaton, List.map_map]
    exact automaton.sound.names_distinct
  cells := by
    intro row held
    rcases List.mem_map.mp held with ⟨state, member, rfl⟩
    rw [Entries.keys, List.map_map]
    have symbols := automaton.sound.symbols_distinct state member
    rw [← State.map_fst_named automaton.stateNames] at symbols
    have texts := symbols.map (f := String.singleton) fun _ _ => String.singleton_inj.mp
    rwa [List.map_map] at texts

theorem moves_ofAutomaton (automaton : Automaton) (start : String) :
    (ofAutomaton automaton start).moves =
      automaton.transitions.map fun move => (move.1, String.singleton move.2.1, move.2.2) := by
  have keyed := keyed_ofAutomaton automaton start
  rw [moves, Entries.collapse_of_nodup keyed.rows, ofAutomaton, Automaton.transitions_eq,
    List.flatMap_map, List.map_flatMap]
  refine List.flatMap_congr fun state member => ?_
  rw [Entries.collapse_of_nodup (keyed.cells _ (List.mem_map_of_mem member)), List.map_map,
    List.map_map]
  rfl

/-- Every automaton with a start has a table. -/
theorem describes_ofAutomaton {start : String}
    (begins : automaton.startState?.map State.name = some start) :
    (ofAutomaton automaton start).Describes automaton where
  states := rfl
  alphabet := rfl
  edges := by
    intro source text target
    rw [← mem_moves_iff, moves_ofAutomaton, List.mem_map]
    constructor
    · rintro ⟨⟨_, symbol, _⟩, transition, same⟩
      cases same
      exact ⟨symbol, rfl, transition⟩
    · rintro ⟨symbol, rfl, transition⟩
      exact ⟨_, transition, rfl⟩
  start := begins
  accepting _ := Iff.rfl

/-! ## Tables in another order -/

/-- Where no key recurs, a table leads where its cells lead. -/
theorem Keyed.target?_eq_some_iff (keyed : table.Keyed) {source text target : String} :
    table.target? source text = some target ↔
      ∃ row ∈ table.rows, row.1 = source ∧ (text, target) ∈ row.2 := by
  have rows : (Entries.keys table.rows.reverse).Nodup := by
    rw [Entries.keys, List.map_reverse]
    exact List.nodup_reverse.mpr keyed.rows
  have cells : ∀ row ∈ table.rows, (Entries.keys row.2.reverse).Nodup := by
    intro row member
    rw [Entries.keys, List.map_reverse]
    exact List.nodup_reverse.mpr (keyed.cells row member)
  rw [target?, Option.bind_eq_some_iff]
  constructor
  · rintro ⟨found, rowFound, cellFound⟩
    have member := List.mem_reverse.mp ((Entries.lookup_eq_some_iff rows).mp rowFound)
    have cell := (Entries.lookup_eq_some_iff (cells _ member)).mp cellFound
    exact ⟨(source, found), member, rfl, List.mem_reverse.mp cell⟩
  · rintro ⟨row, member, rfl, cell⟩
    exact ⟨row.2, (Entries.lookup_eq_some_iff rows).mpr (List.mem_reverse.mpr member),
      (Entries.lookup_eq_some_iff (cells row member)).mpr (List.mem_reverse.mpr cell)⟩

/-- The rows that have cells. -/
def filledRows (table : Table) : List (String × List (String × String)) :=
  table.rows.filter fun row => !row.2.isEmpty

/-- A table that names the same in another order: the rows in any order, the
cells of each in any order, and the accepting states in any order and any number
of times.  Rows without cells may be left out. -/
structure Reorders (other table : Table) : Prop where
  states : other.states = table.states
  alphabet : other.alphabet = table.alphabet
  rows : ∃ rows, table.filledRows.Perm rows ∧
    List.Forall₂ (fun row twin => row.1 = twin.1 ∧ row.2.Perm twin.2) rows other.filledRows
  start : other.start = table.start
  accepting : ∀ name, name ∈ other.accepting ↔ name ∈ table.accepting

theorem exists_filledRows_iff {source : String} {cell : String × String} :
    (∃ row ∈ table.filledRows, row.1 = source ∧ cell ∈ row.2) ↔
      ∃ row ∈ table.rows, row.1 = source ∧ cell ∈ row.2 := by
  constructor
  · rintro ⟨row, member, given⟩
    exact ⟨row, List.mem_of_mem_filter member, given⟩
  · rintro ⟨row, member, name, inside⟩
    exact ⟨row, List.mem_filter.mpr ⟨member, by simp [List.ne_nil_of_mem inside]⟩, name, inside⟩

theorem exists_twin_iff {rows twins : List (String × List (String × String))}
    (alike : List.Forall₂ (fun row twin => row.1 = twin.1 ∧ row.2.Perm twin.2) rows twins)
    {source : String} {cell : String × String} :
    (∃ twin ∈ twins, twin.1 = source ∧ cell ∈ twin.2) ↔
      ∃ row ∈ rows, row.1 = source ∧ cell ∈ row.2 := by
  induction alike with
  | nil => rfl
  | cons same _ inductionHypothesis =>
    simp only [List.exists_mem_cons_iff, inductionHypothesis, same.1, same.2.mem_iff]

theorem Reorders.exists_row_iff {other : Table} (reorders : other.Reorders table) {source : String}
    {cell : String × String} :
    (∃ row ∈ other.rows, row.1 = source ∧ cell ∈ row.2) ↔
      ∃ row ∈ table.rows, row.1 = source ∧ cell ∈ row.2 := by
  rcases reorders.rows with ⟨rows, permuted, alike⟩
  rw [← exists_filledRows_iff, exists_twin_iff alike, ← exists_filledRows_iff]
  simp only [permuted.mem_iff]

/-- The order of rows and cells, and the order and the repetitions of accepting
states, play no part in what a table describes. -/
theorem Describes.reordered (describes : table.Describes automaton) (keyed : table.Keyed)
    {other : Table} (otherKeyed : other.Keyed) (reorders : other.Reorders table) :
    other.Describes automaton where
  states := describes.states.trans reorders.states.symm
  alphabet := describes.alphabet.trans reorders.alphabet.symm
  edges := by
    intro source text target
    rw [otherKeyed.target?_eq_some_iff, reorders.exists_row_iff, ← keyed.target?_eq_some_iff]
    exact describes.edges source text target
  start := by
    rw [reorders.start]
    exact describes.start
  accepting := fun name => (reorders.accepting name).trans (describes.accepting name)

/-- An automaton with fitting names is built of every table that describes it. -/
theorem Describes.exists_build (describes : table.Describes automaton)
    (fits : ∀ name ∈ automaton.stateNames, checkName name = .ok ()) :
    ∃ built, table.build.result = .ok built ∧ built.same automaton = true := by
  rcases describes.exists_runAll fits with ⟨draft, all⟩
  have told := Draft.told_of_runAll all
  have built : table.build.result = .ok told.proper.automaton := by
    rw [build_result, all]
    exact told.proper.build
  exact ⟨_, built, (describes_of_build built).same describes⟩

/-- Whatever is built of a table has exactly the states, the symbols, the edges,
the start and the accepting states that the table names.  Every automaton with a
start has a table.  If every name of the automaton passes the check, each table
that describes the automaton is built, and to the same automaton; and so is each
table that names the parts of the automaton in another order, whatever the order
of the rows, the cells and the accepting states is and however often the latter
are named. -/
theorem build_describes :
    (∀ (table : Table) (automaton : Automaton), table.build.result = .ok automaton →
      table.Describes automaton) ∧
    (∀ (automaton : Automaton) (start : String),
      automaton.startState?.map State.name = some start →
        (ofAutomaton automaton start).Describes automaton) ∧
    (∀ (table : Table) (automaton : Automaton),
      (∀ name ∈ automaton.stateNames, checkName name = .ok ()) → table.Describes automaton →
        ∃ built, table.build.result = .ok built ∧ built.same automaton = true) ∧
    ∀ (table : Table) (automaton : Automaton) (start : String),
      (∀ name ∈ automaton.stateNames, checkName name = .ok ()) →
        automaton.startState?.map State.name = some start → table.Keyed →
          table.Reorders (ofAutomaton automaton start) →
            ∃ built, table.build.result = .ok built ∧ built.same automaton = true := by
  refine ⟨fun table automaton built => describes_of_build built,
    fun automaton start begins => describes_ofAutomaton begins,
    fun table automaton fits describes => describes.exists_build fits, ?_⟩
  intro table automaton start fits begins keyed reorders
  have given := describes_ofAutomaton begins
  exact (given.reordered (keyed_ofAutomaton automaton start) keyed reorders).exists_build fits

/-- A table with its rows, the cells of one and its accepting states out of
order, one of these twice, and without a row for the state that does not move. -/
def crossed : Table where
  states := ["p", "q", "r"]
  alphabet := ["x", "y"]
  rows := [("q", [("y", "p"), ("x", "q")]), ("p", [("x", "r")])]
  start := "q"
  accepting := ["q", "p", "q"]

/-- The automaton that it is the table of. -/
def crossedAutomaton : Automaton :=
  ⟨[⟨"p", true, [('x', 2)]⟩, ⟨"q", true, [('x', 1), ('y', 0)]⟩, ⟨"r", false, []⟩], ['x', 'y'],
    some 1, by constructor <;> decide⟩

theorem crossed_keyed : crossed.Keyed := by
  constructor <;> decide

theorem crossed_reorders : crossed.Reorders (ofAutomaton crossedAutomaton "q") where
  states := rfl
  alphabet := rfl
  rows := by
    refine ⟨[("q", [("x", "q"), ("y", "p")]), ("p", [("x", "r")])], ?_, ?_⟩
    · decide +kernel
    · exact .cons ⟨rfl, by decide⟩ (.cons ⟨rfl, by decide⟩ .nil)
  start := rfl
  accepting := by
    intro name
    have names : crossedAutomaton.acceptingStates.map State.name = ["p", "q"] := by
      decide +kernel
    rw [ofAutomaton, names]
    simp only [crossed, List.mem_cons, List.not_mem_nil, or_false]
    tauto

theorem crossed_describes : crossed.Describes crossedAutomaton :=
  (describes_ofAutomaton rfl).reordered (keyed_ofAutomaton crossedAutomaton "q") crossed_keyed
    crossed_reorders

theorem build_describes_crossed :
    (∀ name ∈ crossedAutomaton.stateNames, checkName name = .ok ()) ∧
      crossed.Keyed ∧ crossed.Reorders (ofAutomaton crossedAutomaton "q") ∧
      crossed.Describes crossedAutomaton ∧
      crossedAutomaton.startState?.map State.name = some "q" ∧
      (ofAutomaton crossedAutomaton "q").Describes crossedAutomaton ∧
      ∃ built, crossed.build.result = .ok built ∧ built.same crossedAutomaton = true ∧
        crossed.Describes built := by
  have fits : ∀ name ∈ crossedAutomaton.stateNames, checkName name = .ok () := by decide +kernel
  rcases build_describes with ⟨sound, ofAll, _, anyOrder⟩
  rcases anyOrder crossed crossedAutomaton "q" fits rfl crossed_keyed crossed_reorders with
    ⟨built, result, same⟩
  exact ⟨fits, crossed_keyed, crossed_reorders, crossed_describes, rfl, ofAll _ _ rfl, built,
    result, same, sound _ _ result⟩

end Table
end FiniteAutomata
