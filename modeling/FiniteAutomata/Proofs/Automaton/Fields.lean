import FiniteAutomata.Proofs.Automaton.Mirrored

namespace FiniteAutomata

/-!
# Drafts written field by field

A draft can be kept in six fields that are written one at a time: the alphabet,
the names, the positions of the names, the flags, the moves and the start.  A
program on these fields can be broken off between two writes, and what it has
written by then stays written.  So that a refused step changes nothing is no
matter of course here: every check has to come before every write, and no
position may be looked at that is not there.

On the fields of a proper draft the programs do what the steps of the draft do.
They are refused with the same faults, and they are broken off nowhere else.
-/

/-- The fields of a draft under construction. -/
structure Fields where
  alphabet : List String
  names : List String
  index : List (String × Nat)
  flags : List Bool
  moves : List (List (String × Nat))
  start : Option Nat
deriving DecidableEq, Repr

namespace Fields

def empty : Fields :=
  ⟨[], [], [], [], [], none⟩

/-- Why a program is broken off: something is refused, or a position is looked
at that a list does not have. -/
inductive Trouble where
  | refused (fault : Fault)
  | outside
deriving DecidableEq, Repr

/-- A program that reads and writes the fields.  What it has written stays
written when it is broken off. -/
abbrev Program := EStateM Trouble Fields

variable {α : Type}

def refuse (fault : Fault) : Program α :=
  throw (.refused fault)

/-- The entry of a list at a position. -/
def entry (items : List α) (position : Nat) : Program α :=
  match items[position]? with
  | some item => return item
  | none => throw .outside

/-- A list with another entry at a position. -/
def replaced (items : List α) (position : Nat) (item : α) : Program (List α) :=
  if position < items.length then return items.set position item else throw .outside

/-! ## The programs -/

def addSymbol (text : String) : Program Unit := do
  if text.toList.length ≠ 1 then refuse (.wideSymbol text)
  else if text ∈ (← get).alphabet then refuse (.repeatedSymbol text)
  else modify fun fields => { fields with alphabet := fields.alphabet ++ [text] }

def checkStateName (name : String) : Program Unit :=
  match checkName name with
  | .ok () => return ()
  | .error fault => refuse fault

def addState (name : String) (accepting : Bool) : Program Nat := do
  checkStateName name
  if name ∈ Entries.keys (← get).index then refuse (.repeatedState name)
  else
    let position := (← get).names.length
    modify fun fields => { fields with names := fields.names ++ [name] }
    modify fun fields => { fields with index := Entries.insert name position fields.index }
    modify fun fields => { fields with flags := fields.flags ++ [accepting] }
    modify fun fields => { fields with moves := fields.moves ++ [[]] }
    return position

/-- The position of a name that must be there. -/
def require (name : String) : Program Nat := do
  match (← get).index.lookup name with
  | some position => return position
  | none => refuse (.missingState name)

def writeFlag (position : Nat) (accepting : Bool) : Program Unit := do
  let flags ← replaced (← get).flags position accepting
  modify fun fields => { fields with flags := flags }

def setAccepting (name : String) (accepting : Bool) : Program Unit := do
  let position ← require name
  writeFlag position accepting

/-- Flag states one after another.  The answer is the names of no state. -/
def markAccepting : List String → Program (List String)
  | [] => return []
  | name :: rest => do
    match (← get).index.lookup name with
    | some position =>
      writeFlag position true
      markAccepting rest
    | none =>
      let ignored ← markAccepting rest
      return name :: ignored

def setStart (name : String) : Program Unit := do
  let position ← require name
  modify fun fields => { fields with start := some position }

/-- A move that is there already is written again. -/
def addMove (source text target : String) : Program Unit := do
  if text.toList.length ≠ 1 then refuse (.wideSymbol text)
  else
    let position ← require source
    match (← get).index.lookup target with
    | none => refuse (.missingTarget target)
    | some goal =>
      let row ← entry (← get).moves position
      match row.lookup text with
      | some existing =>
        if existing ≠ goal then
          let name ← entry (← get).names existing
          refuse (.conflictingMove source text name target)
        else
          let moves ← replaced (← get).moves position (Entries.insert text goal row)
          modify fun fields => { fields with moves := moves }
      | none =>
        let moves ← replaced (← get).moves position (Entries.insert text goal row)
        modify fun fields => { fields with moves := moves }

/-- The fields side by side, as far as all of them go. -/
def toCandidate (fields : Fields) : Candidate where
  states := (fields.names.zip (fields.flags.zip fields.moves)).map fun state =>
    ⟨state.1, state.2.1, state.2.2.map fun move => (move.1, (move.2 : Int))⟩
  alphabet := fields.alphabet
  start := fields.start.map fun position => (position : Int)

def build : Program Automaton := do
  match (← get).toCandidate.check with
  | .ok automaton => return automaton
  | .error fault => refuse (.broken fault)

/-! ## Requests -/

/-- What can be asked of the fields: the calls, and questions. -/
inductive Request where
  | call (call : Draft.Call)
  | hasSymbol (text : String)
  | alphabet
  | hasState (name : String)
  | stateNames
deriving DecidableEq, Repr

/-- What a request that is not refused gives back. -/
inductive Answer where
  | nothing
  | truth (value : Bool)
  | position (index : Nat)
  | texts (texts : List String)
  | automaton (automaton : Automaton)
deriving DecidableEq

def perform : Request → Program Answer
  | .call (.addSymbol text) => do
    addSymbol text
    return .nothing
  | .call (.checkName name) => do
    checkStateName name
    return .nothing
  | .call (.addState name accepting) => return .position (← addState name accepting)
  | .call (.setAccepting name accepting) => do
    setAccepting name accepting
    return .nothing
  | .call (.markAccepting names) => return .texts (← markAccepting names)
  | .call (.setStart name) => do
    setStart name
    return .nothing
  | .call (.addMove source text target) => do
    addMove source text target
    return .nothing
  | .call .build => return .automaton (← build)
  | .hasSymbol text => return .truth (decide (text ∈ (← get).alphabet))
  | .alphabet => return .texts (← get).alphabet
  | .hasState name => return .truth (decide (name ∈ Entries.keys (← get).index))
  | .stateNames => return .texts (← get).names

/-! ## The fields of a draft -/

/-- The moves of a state as they are kept. -/
def row (state : State) : List (String × Nat) :=
  state.moves.map fun move => (String.singleton move.1, move.2)

/-- The fields that hold what a draft holds. -/
def of (draft : Draft) : Fields where
  alphabet := draft.alphabet.map String.singleton
  names := draft.stateNames
  index := draft.stateNames.zipIdx
  flags := draft.states.map State.accepting
  moves := draft.states.map row
  start := draft.start

/-- The run of a program that does to the fields of a draft what a step does to
the draft. -/
def settled (draft : Draft) : Except Fault (α × Draft) → EStateM.Result Trouble Fields α
  | .ok (answer, next) => .ok answer (of next)
  | .error fault => .error (.refused fault) (of draft)

/-! ## Single reads and writes -/

section Runs

variable {fields : Fields}

@[simp]
theorem run_refuse (fault : Fault) :
    (refuse fault : Program α).run fields = .error (.refused fault) fields :=
  rfl

theorem run_entry {items : List α} {position : Nat} {item : α}
    (held : items[position]? = some item) :
    (entry items position).run fields = .ok item fields := by
  rw [entry, held]
  rfl

theorem run_replaced {items : List α} {position : Nat} (inside : position < items.length)
    (item : α) : (replaced items position item).run fields =
      .ok (items.set position item) fields := by
  rw [replaced, if_pos inside]
  rfl

end Runs

/-! ## Looking up in the fields of a draft -/

theorem lookup_zipIdx (names : List String) (name : String) (first : Nat) :
    (names.zipIdx first).lookup name = (names.idxOf? name).map (· + first) := by
  induction names generalizing first with
  | nil => rfl
  | cons head rest inductionHypothesis =>
    rw [List.zipIdx_cons, Entries.lookup_entry, inductionHypothesis, List.idxOf?_cons]
    by_cases same : head = name
    · simp [same]
    · rw [if_neg (Ne.symm same), if_neg (by simpa using same), Option.map_map]
      congr 1
      funext position
      simp only [Function.comp_apply]
      omega

variable (draft : Draft)

theorem lookup_index (name : String) : (of draft).index.lookup name = draft.indexOf? name := by
  rw [of, lookup_zipIdx, Draft.indexOf?_eq_idxOf?]
  simp

theorem keys_index : Entries.keys (of draft).index = draft.stateNames :=
  List.zipIdx_map_fst 0 draft.stateNames

theorem insert_index {name : String} (fresh : name ∉ draft.stateNames) :
    Entries.insert name draft.stateNames.length (of draft).index =
      (draft.stateNames ++ [name]).zipIdx := by
  rw [Entries.insert_of_notMem (by rwa [keys_index])]
  simp [of, List.zipIdx_append]

/-- A text is a symbol or has the wrong length. -/
theorem symbol_or_wide (text : String) :
    (∃ symbol, text = String.singleton symbol) ∨ text.toList.length ≠ 1 := by
  by_cases single : text.toList.length = 1
  · left
    rcases List.length_eq_one_iff.mp single with ⟨symbol, shape⟩
    refine ⟨symbol, String.toList_inj.mp ?_⟩
    rw [shape, String.toList_singleton]
  · exact .inr single

theorem addSymbol_of_wide {text : String} (wide : text.toList.length ≠ 1) :
    draft.addSymbol text = .error (.wideSymbol text) := by
  unfold Draft.addSymbol
  split
  · rename_i shape
    simp [shape] at wide
  · rfl

theorem addMove_of_wide {text : String} (wide : text.toList.length ≠ 1) (source target : String) :
    draft.addMove source text target = .error (.wideSymbol text) := by
  unfold Draft.addMove
  split
  · rename_i shape
    simp [shape] at wide
  · rfl

/-! ## The programs on the fields of a draft -/

theorem addSymbol_of (text : String) : (addSymbol text).run (of draft) =
    settled draft ((draft.addSymbol text).map fun next => ((), next)) := by
  rcases symbol_or_wide text with ⟨symbol, rfl⟩ | wide
  · by_cases known : symbol ∈ draft.alphabet
    · simp [addSymbol, Draft.addSymbol, known, of, settled, Except.map]
    · simp [addSymbol, Draft.addSymbol, known, of, settled, Except.map, Draft.stateNames]
  · rw [addSymbol, if_pos wide, run_refuse, addSymbol_of_wide draft wide]
    rfl

theorem checkStateName_of (name : String) : (checkStateName name).run (of draft) =
    settled draft ((checkName name).map fun _ => ((), draft)) := by
  rw [checkStateName]
  cases checkName name <;> rfl

/-- The fields of a draft with one more state have the writes of all four
lists. -/
theorem of_appendState {name : String} (fresh : name ∉ draft.stateNames) (accepting : Bool) :
    of { draft with states := draft.states ++ [⟨name, accepting, []⟩] } =
      { of draft with
        names := draft.stateNames ++ [name]
        index := Entries.insert name draft.stateNames.length (of draft).index
        flags := (of draft).flags ++ [accepting]
        moves := (of draft).moves ++ [[]] } := by
  rw [insert_index draft fresh]
  simp [of, Draft.stateNames, row]

theorem addState_of (name : String) (accepting : Bool) :
    (addState name accepting).run (of draft) = settled draft
      ((draft.addState name accepting).map fun next => (draft.states.length, next)) := by
  rw [addState, Draft.addState, EStateM.run_bind, checkStateName_of]
  cases checkName name with
  | error fault => rfl
  | ok _ =>
    have keys := keys_index draft
    by_cases known : name ∈ draft.stateNames
    · have held := Draft.hasState_iff.mpr known
      simp [settled, Except.map, keys, known, held]
    · have free : ¬ draft.hasState name = true := mt Draft.hasState_iff.mp known
      have size : draft.stateNames.length = draft.states.length := List.length_map _
      have grown := of_appendState draft known accepting
      simp only [settled, Except.map, EStateM.run_bind, EStateM.run_get, EStateM.run_modify,
        EStateM.run_pure, keys, if_neg known, if_neg free]
      rw [grown, ← size]
      rfl

theorem require_of (name : String) : (require name).run (of draft) =
    settled draft ((draft.require name).map fun position => (position, draft)) := by
  rw [require, EStateM.run_bind, EStateM.run_get]
  dsimp only
  rw [lookup_index, Draft.require]
  cases draft.indexOf? name <;> rfl

theorem setStart_of (name : String) : (setStart name).run (of draft) =
    settled draft ((draft.setStart name).map fun next => ((), next)) := by
  rw [setStart, Draft.setStart, EStateM.run_bind, require_of]
  cases draft.require name <;> rfl

theorem stateNames_updateState {change : State → State}
    (kept : ∀ state, (change state).name = state.name) (position : Nat) :
    (draft.updateState position change).stateNames = draft.stateNames :=
  map_modify_of_eq kept draft.states position

theorem of_updateState_flag (position : Nat) (accepting : Bool) :
    of (draft.updateState position fun state => { state with accepting := accepting }) =
      { of draft with flags := (of draft).flags.set position accepting } := by
  have flags : (draft.states.modify position fun state =>
      { state with accepting := accepting }).map State.accepting =
        (draft.states.map State.accepting).set position accepting := by
    rw [List.set_eq_modify]
    exact map_modify (fun _ => accepting) (by intro state; rfl) draft.states position
  have moves : (draft.states.modify position fun state =>
      { state with accepting := accepting }).map row = draft.states.map row :=
    map_modify_of_eq (by intro state; rfl) draft.states position
  rw [of, of, stateNames_updateState draft (by intro state; rfl)]
  simp only [Draft.updateState, flags, moves]

/-- Writing the flag of a state that is there. -/
theorem writeFlag_of {position : Nat} (inside : position < draft.states.length)
    (accepting : Bool) : (writeFlag position accepting).run (of draft) =
      .ok () (of (draft.updateState position fun state =>
        { state with accepting := accepting })) := by
  have bound : position < (of draft).flags.length := by simpa [of] using inside
  rw [writeFlag, EStateM.run_bind, EStateM.run_get]
  dsimp only
  rw [EStateM.run_bind, run_replaced bound]
  dsimp only
  rw [EStateM.run_modify, of_updateState_flag]

/-- The position of a name is one of a state. -/
theorem lt_of_indexOf? {name : String} {position : Nat}
    (found : draft.indexOf? name = some position) : position < draft.states.length := by
  rcases List.findIdx?_eq_some_iff_getElem.mp found with ⟨inside, _⟩
  exact inside

theorem setAccepting_of (name : String) (accepting : Bool) :
    (setAccepting name accepting).run (of draft) =
      settled draft ((draft.setAccepting name accepting).map fun next => ((), next)) := by
  rw [setAccepting, Draft.setAccepting, EStateM.run_bind, require_of, Draft.require]
  cases found : draft.indexOf? name with
  | none => rfl
  | some position => exact writeFlag_of draft (lt_of_indexOf? draft found) accepting

theorem unknownNames_congr {first second : Draft} (same : first.stateNames = second.stateNames)
    (names : List String) : first.unknownNames names = second.unknownNames names := by
  simp only [Draft.unknownNames, Draft.hasState, Draft.indexOf?_eq_idxOf?, same]

/-- The names of the states stay while they are flagged, so the answer can be
told beforehand. -/
theorem markAccepting_of (names : List String) : (markAccepting names).run (of draft) =
    .ok (draft.unknownNames names) (of (draft.markAccepting names)) := by
  induction names generalizing draft with
  | nil => rfl
  | cons name rest inductionHypothesis =>
    rw [markAccepting, EStateM.run_bind, EStateM.run_get]
    dsimp only
    rw [lookup_index, Draft.markAccepting, Draft.unknownNames, List.filter_cons]
    cases found : draft.indexOf? name with
    | none =>
      have unknown : draft.hasState name = false := by simp [Draft.hasState, found]
      dsimp only
      rw [EStateM.run_bind, inductionHypothesis, if_pos (by simp [unknown])]
      rfl
    | some position =>
      have known : draft.hasState name = true := by simp [Draft.hasState, found]
      dsimp only
      rw [EStateM.run_bind, writeFlag_of draft (lt_of_indexOf? draft found)]
      dsimp only
      rw [inductionHypothesis, if_neg (by simp [known]),
        unknownNames_congr (stateNames_updateState draft (by intro state; rfl) position),
        Draft.unknownNames]

/-! ## Moves -/

/-- Symbols are looked up in the row of a state as in its moves. -/
theorem lookup_row (state : State) (symbol : Char) :
    (row state).lookup (String.singleton symbol) = state.target? symbol := by
  rw [row, State.target?]
  induction state.moves with
  | nil => rfl
  | cons move rest inductionHypothesis =>
    rw [List.map_cons, Entries.lookup_entry, Entries.lookup_entry, inductionHypothesis]
    simp only [String.singleton_inj]

theorem insert_row {state : State} {symbol : Char} (free : state.target? symbol = none)
    (target : Nat) : Entries.insert (String.singleton symbol) target (row state) =
      row { state with moves := state.moves ++ [(symbol, target)] } := by
  have absent : String.singleton symbol ∉ Entries.keys (row state) := by
    have unmoved := State.target?_eq_none_iff.mp free
    intro member
    simp only [Entries.keys, row, List.map_map, List.mem_map] at member
    rcases member with ⟨move, held, same⟩
    exact unmoved (String.singleton_inj.mp same ▸ List.mem_map_of_mem held)
  rw [Entries.insert_of_notMem absent]
  simp [row]

/-- A state that is given a move has its row written. -/
theorem of_updateState_row {position : Nat} {state : State}
    (held : draft.states[position]? = some state) (move : Char × Nat) :
    of (draft.updateState position fun state => { state with moves := state.moves ++ [move] }) =
      { of draft with
        moves := (of draft).moves.set position
          (row { state with moves := state.moves ++ [move] }) } := by
  have names : (draft.updateState position fun state =>
      { state with moves := state.moves ++ [move] }).stateNames = draft.stateNames :=
    stateNames_updateState draft (by intro state; rfl) position
  have flags : (draft.states.modify position fun state =>
      { state with moves := state.moves ++ [move] }).map State.accepting =
        draft.states.map State.accepting :=
    map_modify_of_eq (by intro state; rfl) draft.states position
  have moves : (draft.states.modify position fun state =>
      { state with moves := state.moves ++ [move] }).map row =
        (draft.states.map row).set position
          (row { state with moves := state.moves ++ [move] }) := by
    rw [List.modify_eq_set_getElem?, held]
    exact List.map_set
  rw [of, of, names]
  simp only [Draft.updateState, flags, moves]

/-- A move that is there is written again as it is. -/
theorem rewrite_row {position : Nat} {state : State} {symbol : Char} {target : Nat}
    (rows : (of draft).moves[position]? = some (row state))
    (leads : state.target? symbol = some target) :
    (of draft).moves.set position (Entries.insert (String.singleton symbol) target (row state)) =
      (of draft).moves := by
  rw [Entries.insert_of_lookup (by rw [lookup_row, leads])]
  rcases List.getElem?_eq_some_iff.mp rows with ⟨inside, same⟩
  rw [← same, List.set_getElem_self]

theorem names_of {position : Nat} (inside : position < draft.stateNames.length) :
    (of draft).names[position]? = some (draft.nameAt position) := by
  rw [Draft.stateNames, List.length_map] at inside
  simp [of, Draft.stateNames, Draft.nameAt, List.getElem?_eq_getElem inside]

theorem addMove_of (proper : draft.Proper) (source text target : String) :
    (addMove source text target).run (of draft) =
      settled draft ((draft.addMove source text target).map fun next => ((), next)) := by
  rcases symbol_or_wide text with ⟨symbol, rfl⟩ | wide
  · rw [addMove, if_neg (by simp), Draft.addMove, EStateM.run_bind, require_of, Draft.require]
    simp only [String.toList_singleton]
    cases found : draft.indexOf? source with
    | none => rfl
    | some position =>
      simp only [settled, Except.map, EStateM.run_bind, EStateM.run_get, lookup_index]
      cases goalFound : draft.indexOf? target with
      | none => rfl
      | some goal =>
        have inside := lt_of_indexOf? draft found
        have held : draft.states[position]? = some draft.states[position] :=
          List.getElem?_eq_getElem inside
        have targets := proper.targets_bound_names (List.getElem_mem inside)
        generalize draft.states[position] = state at held targets
        have rows : (of draft).moves[position]? = some (row state) := by simp [of, held]
        have bound : position < (of draft).moves.length := by simpa [of] using inside
        simp only [EStateM.run_bind, EStateM.run_get, run_entry rows, lookup_row, Draft.target?,
          held]
        cases leads : state.target? symbol with
        | none =>
          simp only [EStateM.run_bind, EStateM.run_get, run_replaced bound, EStateM.run_modify,
            insert_row leads, of_updateState_row draft held]
        | some existing =>
          by_cases same : existing = goal
          · rw [same] at leads
            simp only [same, ne_eq, not_true_eq_false, if_false, if_true, EStateM.run_bind,
              EStateM.run_get, run_replaced bound, EStateM.run_modify, rewrite_row draft rows leads]
          · have name := names_of draft (targets _ (State.mem_moves_of_target? leads))
            simp only [ne_eq, same, not_false_eq_true, if_true, if_false, EStateM.run_bind,
              EStateM.run_get, run_entry name, run_refuse]
  · rw [addMove, if_pos wide, run_refuse, addMove_of_wide draft wide]
    rfl

theorem build_of : build.run (of draft) =
    settled draft (draft.build.map fun automaton => (automaton, draft)) := by
  have candidate : (of draft).toCandidate = draft.toCandidate := by
    simp [toCandidate, of, Draft.toCandidate, Draft.stateNames, List.zip_map', row,
      State.toCandidate]
  rw [build, EStateM.run_bind, EStateM.run_get]
  dsimp only
  rw [candidate, Draft.build]
  cases draft.toCandidate.check <;> rfl

end Fields

/-! ## Requests of a draft -/

open Fields (Answer Request)

/-- What a draft gives back and the draft then, or why the request is refused. -/
def Draft.respond (draft : Draft) : Request → Except Fault (Answer × Draft)
  | .call (.addSymbol text) => (draft.addSymbol text).map fun next => (.nothing, next)
  | .call (.checkName name) => (checkName name).map fun _ => (.nothing, draft)
  | .call (.addState name accepting) =>
    (draft.addState name accepting).map fun next => (.position draft.states.length, next)
  | .call (.setAccepting name accepting) =>
    (draft.setAccepting name accepting).map fun next => (.nothing, next)
  | .call (.markAccepting names) =>
    .ok (.texts (draft.unknownNames names), draft.markAccepting names)
  | .call (.setStart name) => (draft.setStart name).map fun next => (.nothing, next)
  | .call (.addMove source text target) =>
    (draft.addMove source text target).map fun next => (.nothing, next)
  | .call .build => draft.build.map fun automaton => (.automaton automaton, draft)
  | .hasSymbol text => .ok (.truth (draft.hasSymbol text), draft)
  | .alphabet => .ok (.texts (draft.alphabet.map String.singleton), draft)
  | .hasState name => .ok (.truth (draft.hasState name), draft)
  | .stateNames => .ok (.texts draft.stateNames, draft)

/-- Beside its answer a step gives what it gives alone. -/
theorem map_snd_answer (step : Except Fault Draft) (answer : Draft → Answer) :
    (step.map fun next => (answer next, next)).map Prod.snd = step := by
  cases step <;> rfl

theorem Draft.respond_call (draft : Draft) (call : Draft.Call) :
    (draft.respond (.call call)).map Prod.snd = call.run draft := by
  cases call with
  | addSymbol text => exact map_snd_answer (draft.addSymbol text) _
  | checkName name =>
    rw [Draft.respond, Draft.Call.run]
    cases checkName name <;> rfl
  | addState name accepting => exact map_snd_answer (draft.addState name accepting) _
  | setAccepting name accepting => exact map_snd_answer (draft.setAccepting name accepting) _
  | markAccepting names => rfl
  | setStart name => exact map_snd_answer (draft.setStart name) _
  | addMove source text target => exact map_snd_answer (draft.addMove source text target) _
  | build =>
    rw [Draft.respond, Draft.Call.run]
    cases draft.build <;> rfl

namespace Fields

variable (draft : Draft)

/-- A program that does what a step does, with an answer behind it. -/
theorem run_answer {α β : Type} {program : Program α} {step : Except Fault β} {value : β → α}
    {next : β → Draft}
    (run : program.run (of draft) = settled draft (step.map fun given => (value given, next given)))
    (answer : α → Answer) : (do return answer (← program) : Program Answer).run (of draft) =
      settled draft (step.map fun given => (answer (value given), next given)) := by
  rw [EStateM.run_bind, run]
  cases step <;> rfl

theorem hasSymbol_of (text : String) :
    decide (text ∈ (of draft).alphabet) = draft.hasSymbol text := by
  rw [Bool.eq_iff_iff]
  simp [of, Draft.hasSymbol]

theorem hasState_of (name : String) :
    decide (name ∈ Entries.keys (of draft).index) = draft.hasState name := by
  rw [Bool.eq_iff_iff, decide_eq_true_iff, keys_index, Draft.hasState_iff]

/-- On the fields of a proper draft every request is answered as by the draft. -/
theorem perform_of {draft : Draft} (proper : draft.Proper) (request : Request) :
    (perform request).run (of draft) = settled draft (draft.respond request) := by
  cases request with
  | call call =>
    cases call with
    | addSymbol text => exact run_answer draft (addSymbol_of draft text) fun _ => .nothing
    | checkName name => exact run_answer draft (checkStateName_of draft name) fun _ => .nothing
    | addState name accepting => exact run_answer draft (addState_of draft name accepting) .position
    | setAccepting name accepting =>
      exact run_answer draft (setAccepting_of draft name accepting) fun _ => .nothing
    | markAccepting names =>
      rw [perform, EStateM.run_bind, markAccepting_of]
      rfl
    | setStart name => exact run_answer draft (setStart_of draft name) fun _ => .nothing
    | addMove source text target =>
      exact run_answer draft (addMove_of draft proper source text target) fun _ => .nothing
    | build => exact run_answer draft (build_of draft) .automaton
  | hasSymbol text =>
    rw [Draft.respond, ← hasSymbol_of]
    rfl
  | alphabet => rfl
  | hasState name =>
    rw [Draft.respond, ← hasState_of]
    rfl
  | stateNames => rfl

end Fields
end FiniteAutomata
