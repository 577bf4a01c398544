import FiniteAutomata.Automaton.Table
import FiniteAutomata.Proofs.Automaton.Unordered

namespace FiniteAutomata

/-!
# Calls that are all taken

A bulk step gives a draft items one after another and stops at the first one
that is refused.  So it succeeds if each item is a call that the draft takes
after the calls before it, and then all of them belong to what the draft was
told.  For symbols, names and flags it can be told beforehand whether they are
all taken.
-/

theorem bind_eq_ok_iff {ε α β : Type} {first : Except ε α} {next : α → Except ε β} {result : β} :
    first.bind next = .ok result ↔ ∃ value, first = .ok value ∧ next value = .ok result := by
  cases first with
  | error fault =>
    constructor
    · rintro ⟨⟩
    · rintro ⟨value, given, _⟩
      cases given
  | ok value =>
    constructor
    · exact fun later => ⟨value, rfl, later⟩
    · rintro ⟨_, given, later⟩
      cases given
      exact later

/-! ## Bulk steps -/

namespace Table

theorem each_cons {α : Type} (step : Draft → α → Except Fault Draft) (draft : Draft) (item : α)
    (rest : List α) :
    each step draft (item :: rest) = (step draft item).bind fun next => each step next rest := by
  rw [each]
  cases step draft item <;> rfl

theorem each_append {α : Type} (step : Draft → α → Except Fault Draft) (draft : Draft)
    (front back : List α) :
    each step draft (front ++ back) = (each step draft front).bind fun next =>
      each step next back := by
  induction front generalizing draft with
  | nil => rfl
  | cons item rest inductionHypothesis =>
    rw [List.cons_append, each_cons, each_cons]
    cases step draft item with
    | error fault => rfl
    | ok next => exact inductionHypothesis next

theorem each_map {α β : Type} (step : Draft → β → Except Fault Draft) (change : α → β)
    (draft : Draft) (items : List α) :
    each step draft (items.map change) =
      each (fun draft item => step draft (change item)) draft items := by
  induction items generalizing draft with
  | nil => rfl
  | cons item rest inductionHypothesis =>
    rw [List.map_cons, each_cons, each_cons]
    cases step draft (change item) with
    | error fault => rfl
    | ok next => exact inductionHypothesis next

end Table

namespace Draft

/-- The draft after calls that are all taken, or why the first one of them is
refused. -/
def runAll (draft : Draft) (calls : List Call) : Except Fault Draft :=
  Table.each Call.run draft calls

theorem runAll_cons (draft : Draft) (call : Call) (rest : List Call) :
    draft.runAll (call :: rest) = (call.run draft).bind fun next => next.runAll rest :=
  Table.each_cons Call.run draft call rest

theorem runAll_append (draft : Draft) (front back : List Call) :
    draft.runAll (front ++ back) = (draft.runAll front).bind fun next => next.runAll back :=
  Table.each_append Call.run draft front back

section Calls

variable {draft next : Draft} {history calls : List Call}

theorem runAll_cons_eq_ok_iff {call : Call} {rest : List Call} :
    draft.runAll (call :: rest) = .ok next ↔
      ∃ middle, call.run draft = .ok middle ∧ middle.runAll rest = .ok next := by
  rw [runAll_cons, bind_eq_ok_iff]

/-- Calls are all taken if they are one part after the other. -/
theorem runAll_append_eq_ok_iff {front back : List Call} :
    draft.runAll (front ++ back) = .ok next ↔
      ∃ middle, draft.runAll front = .ok middle ∧ middle.runAll back = .ok next := by
  rw [runAll_append, bind_eq_ok_iff]

/-- Calls that are all taken are part of what the draft was told. -/
theorem Told.runAll (told : Told history draft) (all : draft.runAll calls = .ok next) :
    Told (history ++ calls) next := by
  induction calls generalizing history draft with
  | nil =>
    cases all
    rwa [List.append_nil]
  | cons call rest inductionHypothesis =>
    rcases runAll_cons_eq_ok_iff.mp all with ⟨middle, taken, later⟩
    rw [List.append_cons]
    exact inductionHypothesis (told.run taken) later

theorem told_of_runAll (all : Draft.empty.runAll calls = .ok next) : Told calls next :=
  Told.empty.runAll all

/-- A call among calls that are all taken is taken after some of them. -/
theorem exists_run_of_mem (all : Draft.empty.runAll calls = .ok next) {call : Call}
    (member : call ∈ calls) :
    ∃ front middle after, front ⊆ calls ∧ Told front middle ∧ call.run middle = .ok after := by
  rcases List.append_of_mem member with ⟨front, back, rfl⟩
  rcases runAll_append_eq_ok_iff.mp all with ⟨middle, first, rest⟩
  rcases runAll_cons_eq_ok_iff.mp rest with ⟨after, taken, _⟩
  exact ⟨front, middle, after, List.subset_append_left _ _, told_of_runAll first, taken⟩

theorem taken_sublist (draft : Draft) (calls : List Call) : (draft.taken calls).Sublist calls := by
  induction calls generalizing draft with
  | nil => exact .slnil
  | cons call rest inductionHypothesis =>
    rw [Draft.taken]
    cases call.run draft with
    | ok next => exact (inductionHypothesis next).cons_cons call
    | error fault => exact (inductionHypothesis draft).cons call

/-- Calls that a draft takes one by one are all taken. -/
theorem runAll_of_taken (taken : draft.taken calls = calls) :
    draft.runAll calls = .ok (draft.after calls) := by
  induction calls generalizing draft with
  | nil => rfl
  | cons call rest inductionHypothesis =>
    have step : draft.after (call :: rest) = (call.next draft).after rest := rfl
    rw [step, Call.next, runAll_cons_eq_ok_iff]
    rw [Draft.taken] at taken
    cases given : call.run draft with
    | ok next =>
      rw [given] at taken
      exact ⟨next, rfl, inductionHypothesis (List.cons.inj taken).2⟩
    | error fault =>
      -- What is taken of the rest is shorter than the calls.
      rw [given] at taken
      dsimp only at taken
      have bound := (taken_sublist draft rest).length_le
      rw [taken, List.length_cons] at bound
      omega

end Calls

/-! ## Symbols, names, flags and the start -/

section Kinds

variable {draft : Draft} {names : List String}

theorem runAll_addSymbol {symbols : List Char} (distinct : (draft.alphabet ++ symbols).Nodup) :
    draft.runAll (symbols.map fun symbol => .addSymbol (String.singleton symbol)) =
      .ok { draft with alphabet := draft.alphabet ++ symbols } := by
  induction symbols generalizing draft with
  | nil =>
    rw [List.append_nil]
    rfl
  | cons symbol rest inductionHypothesis =>
    have fresh : symbol ∉ draft.alphabet := fun known =>
      (List.nodup_append.mp distinct).2.2 symbol known symbol List.mem_cons_self rfl
    rw [List.append_cons] at distinct ⊢
    exact runAll_cons_eq_ok_iff.mpr ⟨_, addSymbol_eq_ok_iff.mpr ⟨symbol, rfl, fresh, rfl⟩,
      inductionHypothesis distinct⟩

theorem exists_runAll_addState (fits : ∀ name ∈ names, NameFits name)
    (distinct : (draft.stateNames ++ names).Nodup) :
    ∃ next, draft.runAll (names.map fun name => .addState name false) = .ok next := by
  induction names generalizing draft with
  | nil => exact ⟨draft, rfl⟩
  | cons name rest inductionHypothesis =>
    have fresh : name ∉ draft.stateNames := fun known =>
      (List.nodup_append.mp distinct).2.2 name known name List.mem_cons_self rfl
    rcases List.forall_mem_cons.mp fits with ⟨first, others⟩
    let longer : Draft := { draft with states := draft.states ++ [⟨name, false, []⟩] }
    have taken : (Call.addState name false).run draft = .ok longer :=
      addState_eq_ok_iff.mpr ⟨first, fresh, rfl⟩
    have apart : (longer.stateNames ++ rest).Nodup := by
      rw [List.append_cons] at distinct
      simpa [longer, stateNames] using distinct
    rcases inductionHypothesis others apart with ⟨next, later⟩
    exact ⟨next, runAll_cons_eq_ok_iff.mpr ⟨_, taken, later⟩⟩

theorem exists_runAll_setAccepting (distinct : draft.stateNames.Nodup)
    (known : ∀ name ∈ names, name ∈ draft.stateNames) :
    ∃ next, draft.runAll (names.map fun name => .setAccepting name true) = .ok next := by
  induction names generalizing draft with
  | nil => exact ⟨draft, rfl⟩
  | cons name rest inductionHypothesis =>
    rcases List.forall_mem_cons.mp known with ⟨first, others⟩
    have taken : (Call.setAccepting name true).run draft = .ok _ :=
      (setAccepting_eq_ok_iff distinct).mpr ⟨first, rfl⟩
    have kept := stateNames_mapStates draft fun state : State =>
      show (if state.name = name then { state with accepting := true } else state).name =
        state.name by split <;> rfl
    rw [← kept] at distinct others
    rcases inductionHypothesis distinct others with ⟨next, later⟩
    exact ⟨next, runAll_cons_eq_ok_iff.mpr ⟨_, taken, later⟩⟩

theorem runAll_setStart (draft : Draft) (name : String) :
    draft.runAll [.setStart name] = draft.setStart name := by
  rw [runAll_cons, Call.run]
  cases draft.setStart name <;> rfl

end Kinds

/-! ## What calls say last -/

theorem last?_append {α : Type} (part : Call → Option α) (front back : List Call) :
    last? part (front ++ back) = (last? part back).or (last? part front) := by
  rw [last?, last?, last?, List.filterMap_append, List.getLast?_append]

/-- Calls that all say one thing of a name say it last. -/
theorem last?_map {α : Type} {part : Call → Option α} {make : String → Call} {name : String}
    {value : α} (said : ∀ other, part (make other) = if other = name then some value else none)
    (names : List String) :
    last? part (names.map make) = if name ∈ names then some value else none := by
  induction names using List.reverseRecOn with
  | nil => rfl
  | append_singleton names other inductionHypothesis =>
    rw [List.map_append, List.map_singleton, last?_concat, said, inductionHypothesis]
    by_cases same : other = name
    · simp [same]
    · simp [same, Ne.symm same]

end Draft
end FiniteAutomata
