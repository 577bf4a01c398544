import FiniteAutomata.Log.Event

namespace FiniteAutomata
namespace Log

/-!
# Results with their events

A result together with the events that were reported on the way to it, in the
order in which they happened.  Events come with failures too.
-/

/-- A result together with what was reported on the way to it. -/
structure Reported (ε α : Type) where
  events : List Event
  result : Except ε α

namespace Reported

variable {ε ζ α β : Type}

/-- A result of which nothing is reported. -/
def silent (result : Except ε α) : Reported ε α :=
  ⟨[], result⟩

def andThen (first : Reported ε α) (next : α → Reported ε β) : Reported ε β :=
  match first.result with
  | .ok value => ⟨first.events ++ (next value).events, (next value).result⟩
  | .error fault => ⟨first.events, .error fault⟩

def widen (change : ε → ζ) (reported : Reported ε α) : Reported ζ α :=
  match reported.result with
  | .ok value => ⟨reported.events, .ok value⟩
  | .error fault => ⟨reported.events, .error (change fault)⟩

end Reported
end Log
end FiniteAutomata
