import FiniteAutomata.Value.Basic

namespace FiniteAutomata
namespace Log

/-!
# Log entries

An entry has a level, the name of the part that wrote it, the name of what
happened, and fields.  Levels are ordered by their rank; an entry is kept at a
threshold if its rank reaches it.
-/

/-- How grave an entry is. -/
inductive Level where
  | debug
  | info
  | warning
  | error
  | critical
deriving DecidableEq, Repr

/-- The rank of a level.  Thresholds are ranks, so that there can be one below
every level. -/
def Level.rank : Level → Nat
  | .debug => 10
  | .info => 20
  | .warning => 30
  | .error => 40
  | .critical => 50

def Level.name : Level → String
  | .debug => "debug"
  | .info => "info"
  | .warning => "warning"
  | .error => "error"
  | .critical => "critical"

def Level.ofName? (name : String) : Option Level :=
  [Level.debug, .info, .warning, .error, .critical].find? fun level => level.name == name

/-- One line of a log. -/
structure Entry where
  level : Level
  source : String
  event : String
  fields : List (String × Value)

def rootSource : String := "root"

/-- The names that a report has for its own parts.  No field may have one. -/
def partNames : List String :=
  ["self", "event", "method_name"]

/-- The fields that are settled without the reporter, or that only say how an
entry is to be written.  They are left out. -/
def settledFields : List String :=
  ["level", "logger", "timestamp", "exc_info", "stack_info"]

/-- The entry of a report, unless a field has the name of a part. -/
def Entry.ofReport? (level : Level) (source event : String) (fields : List (String × Value)) :
    Option Entry :=
  if fields.any fun field => partNames.contains field.1 then none
  else
    some
      ⟨level, if source = "" then rootSource else source, event,
        fields.filter fun field => !settledFields.contains field.1⟩

/-- The entries whose rank reaches a threshold. -/
def atLeast (threshold : Nat) (entries : List Entry) : List Entry :=
  entries.filter fun entry => threshold ≤ entry.level.rank

end Log
end FiniteAutomata
