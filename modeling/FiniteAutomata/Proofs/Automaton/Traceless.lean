import FiniteAutomata.Proofs.Automaton.Fields

namespace FiniteAutomata
namespace Fields

/-!
# Refused requests leave no trace

Whoever asks for a draft step by step can go on after a refusal.  A request
that is refused leaves all fields as they were, and so does a request that only
looks at them, such as building.  So these requests can be taken out of a
history, or put into it, and all other requests are answered as before and the
same automata are built.
-/

/-! ## Histories -/

/-- The outcome of a request and the fields then, whether or not the request is
refused. -/
def respond (fields : Fields) (request : Request) : Except Trouble Answer × Fields :=
  match (perform request).run fields with
  | .ok answer next => (.ok answer, next)
  | .error trouble next => (.error trouble, next)

/-- The fields after requests in their order. -/
def after (fields : Fields) (requests : List Request) : Fields :=
  requests.foldl (fun held request => (held.respond request).2) fields

/-- A request with its outcome. -/
structure Exchange where
  request : Request
  outcome : Except Trouble Answer
deriving DecidableEq

/-- The requests in their order with their outcomes. -/
def history (fields : Fields) : List Request → List Exchange
  | [] => []
  | request :: rest =>
    ⟨request, (fields.respond request).1⟩ :: history (fields.respond request).2 rest

/-- A request that only looks at the fields. -/
def Request.Looks : Request → Prop
  | .call (.checkName _) | .call .build => True
  | .call _ => False
  | _ => True

def Exchange.taken (exchange : Exchange) : Bool :=
  exchange.outcome.isOk

/-- An exchange of a request that was refused or only looks. -/
def Exchange.Idle (exchange : Exchange) : Prop :=
  exchange.taken = false ∨ exchange.request.Looks

/-- A history without some of its idle exchanges. -/
inductive Thinned : List Exchange → List Exchange → Prop
  | nil : Thinned [] []
  | keep {full rest : List Exchange} (exchange : Exchange) (thinned : Thinned full rest) :
      Thinned (exchange :: full) (exchange :: rest)
  | drop {full rest : List Exchange} {exchange : Exchange} (idle : exchange.Idle)
      (thinned : Thinned full rest) : Thinned (exchange :: full) rest

theorem thinned_filter {keeps : Exchange → Bool} {exchanges : List Exchange}
    (idle : ∀ exchange ∈ exchanges, keeps exchange = false → exchange.Idle) :
    Thinned exchanges (exchanges.filter keeps) := by
  induction exchanges with
  | nil => exact .nil
  | cons exchange rest inductionHypothesis =>
    have later := inductionHypothesis fun other member =>
      idle other (List.mem_cons_of_mem _ member)
    rw [List.filter_cons]
    by_cases kept : keeps exchange = true
    · rw [if_pos kept]
      exact .keep exchange later
    · rw [if_neg kept]
      exact .drop (idle exchange List.mem_cons_self (by simpa using kept)) later

theorem map_request_history (fields : Fields) (requests : List Request) :
    (fields.history requests).map Exchange.request = requests := by
  induction requests generalizing fields with
  | nil => rfl
  | cons request rest inductionHypothesis => rw [history, List.map_cons, inductionHypothesis]

end Fields

/-! ## One request of a draft -/

open Fields (Request Answer)

/-- The draft after a request: the old one if the request is refused. -/
def Draft.next (draft : Draft) (request : Request) : Draft :=
  match draft.respond request with
  | .ok (_, next) => next
  | .error _ => draft

/-- The outcome of a request of a draft, as the fields tell it. -/
def Draft.outcome (draft : Draft) (request : Request) : Except Fields.Trouble Answer :=
  ((draft.respond request).map Prod.fst).mapError .refused

namespace Draft

variable {draft : Draft} {request : Request}

theorem next_call (draft : Draft) (call : Call) : draft.next (.call call) = call.next draft := by
  rw [Draft.next, Call.next, ← respond_call]
  rcases draft.respond (.call call) with fault | ⟨answer, next⟩ <;> rfl

theorem Proper.next (proper : draft.Proper) (request : Request) : (draft.next request).Proper := by
  cases request with
  | call call =>
    rw [next_call]
    exact proper.after [call]
  | _ => exact proper

/-- A refused request and one that only looks give the old draft. -/
theorem next_of_refused {fault : Fault} (refused : draft.respond request = .error fault) :
    draft.next request = draft := by
  rw [Draft.next, refused]

theorem next_of_looks (looks : request.Looks) : draft.next request = draft := by
  cases request with
  | call call =>
    cases call with
    | checkName name =>
      rw [Draft.next, Draft.respond]
      cases checkName name <;> rfl
    | build =>
      rw [Draft.next, Draft.respond]
      cases draft.build <;> rfl
    | _ => cases looks
  | _ => rfl

end Draft

namespace Fields

variable {draft : Draft}

theorem respond_of (proper : draft.Proper) (request : Request) :
    (of draft).respond request = (draft.outcome request, of (draft.next request)) := by
  rw [respond, perform_of proper, Draft.outcome, Draft.next]
  rcases draft.respond request with fault | ⟨answer, next⟩ <;> rfl

/-- An idle exchange leaves the draft as it is. -/
theorem next_of_idle {request : Request}
    (idle : (⟨request, draft.outcome request⟩ : Exchange).Idle) : draft.next request = draft := by
  rcases idle with refused | looks
  · rw [Exchange.taken, Draft.outcome] at refused
    cases responds : draft.respond request with
    | error fault => exact Draft.next_of_refused responds
    | ok given =>
      rw [responds] at refused
      cases refused
  · exact Draft.next_of_looks looks

/-! ## Whole histories -/

theorem after_cons (fields : Fields) (request : Request) (rest : List Request) :
    fields.after (request :: rest) = (fields.respond request).2.after rest :=
  rfl

/-- The calls among requests. -/
def calls (requests : List Request) : List Draft.Call :=
  requests.filterMap fun request =>
    match request with
    | .call call => some call
    | _ => none

theorem calls_map_call (given : List Draft.Call) : calls (given.map .call) = given := by
  rw [calls, List.filterMap_map]
  exact List.filterMap_some

/-- The fields after requests are those of the draft after the calls. -/
theorem after_of (proper : draft.Proper) (requests : List Request) :
    (of draft).after requests = of (draft.after (calls requests)) := by
  induction requests generalizing draft with
  | nil => rfl
  | cons request rest inductionHypothesis =>
    rw [after_cons, respond_of proper, inductionHypothesis (proper.next request)]
    cases request with
    | call call =>
      rw [Draft.next_call]
      rfl
    | _ => rfl

/-- What is left of a history without idle exchanges is the history of the
requests that are left.  The induction is on the history; a kept exchange leads
to the next draft on both sides, and a dropped one stays at the same draft. -/
theorem history_of_thinned (proper : draft.Proper) {requests : List Request}
    {rest : List Exchange} (thinned : Thinned ((of draft).history requests) rest) :
    (of draft).history (rest.map Exchange.request) = rest ∧
      (of draft).after (rest.map Exchange.request) = (of draft).after requests := by
  induction requests generalizing draft rest with
  | nil =>
    cases thinned
    exact ⟨rfl, rfl⟩
  | cons request others inductionHypothesis =>
    rw [history, respond_of proper] at thinned
    rw [after_cons, respond_of proper]
    cases thinned with
    | keep _ later =>
      rcases inductionHypothesis (proper.next request) later with ⟨told, led⟩
      rw [List.map_cons, history, after_cons, respond_of proper]
      exact ⟨congrArg _ told, led⟩
    | drop idle later =>
      rw [next_of_idle idle] at later ⊢
      exact inductionHypothesis proper later

/-! ## From the beginning -/

/-- The requests that are not refused. -/
def answered (fields : Fields) (requests : List Request) : List Request :=
  ((fields.history requests).filter Exchange.taken).map Exchange.request

def Request.isBuild (request : Request) : Bool :=
  request == .call .build

theorem looks_of_isBuild {request : Request} (builds : request.isBuild = true) : request.Looks := by
  rw [Request.isBuild, beq_iff_eq] at builds
  rw [builds]
  trivial

/-- What is left of requests in a filtered history is the requests that pass. -/
theorem map_request_filter (fields : Fields) (requests : List Request) (keeps : Request → Bool) :
    ((fields.history requests).filter fun exchange => keeps exchange.request).map Exchange.request =
      requests.filter keeps := by
  conv_rhs => rw [← map_request_history fields requests, List.filter_map]
  rfl

/-- After any requests, a request that is refused leaves all fields as they
were.  So refused requests, and builds and others that only look, can be taken
out of any history: what is left is the history of the requests that are left,
and it ends with the same fields.  The fields are at all times those of the
draft that was given the same calls. -/
theorem refused_leaves_no_trace :
    (∀ requests request trouble, ((empty.after requests).respond request).1 = .error trouble →
      ((empty.after requests).respond request).2 = empty.after requests ∧
        ∃ fault, trouble = .refused fault) ∧
    (∀ requests rest, Thinned (empty.history requests) rest →
      empty.history (rest.map Exchange.request) = rest ∧
        empty.after (rest.map Exchange.request) = empty.after requests) ∧
    (∀ requests,
      empty.history (empty.answered requests) = (empty.history requests).filter Exchange.taken ∧
        empty.after (empty.answered requests) = empty.after requests) ∧
    (∀ requests,
      empty.history (requests.filter fun request => !request.isBuild) =
          (empty.history requests).filter (fun exchange => !exchange.request.isBuild) ∧
        empty.after (requests.filter fun request => !request.isBuild) = empty.after requests) ∧
    ∀ requests, ∃ draft, LooseDraft.empty.after (calls requests) = Draft.loose draft ∧
      empty.after requests = of draft ∧
        ∀ request, (of draft).respond request =
          (draft.outcome request, of (draft.next request)) := by
  have start : Draft.empty.Proper := .empty
  have thinning : ∀ requests rest, Thinned (empty.history requests) rest →
      empty.history (rest.map Exchange.request) = rest ∧
        empty.after (rest.map Exchange.request) = empty.after requests :=
    fun requests rest => history_of_thinned start
  refine ⟨?_, thinning, ?_, ?_, ?_⟩
  · intro requests request trouble fails
    have proper := start.after (calls requests)
    have held : empty.after requests = of (Draft.empty.after (calls requests)) :=
      after_of start requests
    rw [held, respond_of proper] at fails ⊢
    cases responds : (Draft.empty.after (calls requests)).respond request with
    | error fault =>
      rw [Draft.next_of_refused responds]
      rw [Draft.outcome, responds] at fails
      exact ⟨rfl, fault, (Except.error.inj fails).symm⟩
    | ok given =>
      rw [Draft.outcome, responds] at fails
      cases fails
  · intro requests
    exact thinning requests _ (thinned_filter fun _ _ refused => .inl refused)
  · intro requests
    have thinned : Thinned (empty.history requests)
        ((empty.history requests).filter fun exchange => !exchange.request.isBuild) :=
      thinned_filter fun exchange _ builds => .inr (looks_of_isBuild (by simpa using builds))
    rw [← map_request_filter empty requests]
    exact thinning requests _ thinned
  · intro requests
    exact ⟨Draft.empty.after (calls requests), LooseDraft.after_loose Draft.empty (calls requests),
      after_of start requests, respond_of (start.after (calls requests))⟩

/-- Requests two of which are refused, with a build in between. -/
def fumbled : List Request :=
  [.call (.addState "p" true), .call (.addState "p" false), .call (.addMove "p" "a" "q"),
    .call .build, .call (.setStart "p"), .call (.addMove "p" "a" "p"), .stateNames, .call .build]

/-- The same requests without the refused ones and without the first build. -/
def straight : List Request :=
  [.call (.addState "p" true), .call (.setStart "p"), .call (.addMove "p" "a" "p"), .call .build]

theorem refused_leaves_no_trace_fumbled :
    ((empty.after fumbled).respond (.call (.addMove "p" "ab" "p"))).2 = empty.after fumbled ∧
    Thinned (empty.history fumbled) (empty.history straight) ∧
      empty.after straight = empty.after fumbled := by
  have refused : ((empty.after fumbled).respond (.call (.addMove "p" "ab" "p"))).1 =
      .error (.refused (.wideSymbol "ab")) := by
    decide +kernel
  have thinned : ∃ rest, Thinned (empty.history fumbled) rest ∧
      rest.map Exchange.request = straight :=
    ⟨_, .keep _ (.drop (.inl (by decide +kernel)) (.drop (.inl (by decide +kernel))
      (.drop (.inr trivial) (.keep _ (.keep _ (.drop (.inr trivial) (.keep _ .nil))))))), rfl⟩
  rcases thinned with ⟨rest, thinned, requests⟩
  rcases refused_leaves_no_trace.2.1 fumbled rest thinned with ⟨told, led⟩
  rw [requests] at told led
  refine ⟨(refused_leaves_no_trace.1 _ _ _ refused).1, ?_, led⟩
  rwa [told]

end Fields
end FiniteAutomata
