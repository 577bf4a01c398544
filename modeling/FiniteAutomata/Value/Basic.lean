import FiniteAutomata.Entries
import FiniteAutomata.Value.Decimal

namespace FiniteAutomata

/-!
# Loosely typed values

The values that data formats hand over before anyone has said what they
should be: JSON texts, configuration files and recorded inputs all denote
them.  The members of an object keep the order in which they were written,
because the order of a state's moves is part of an automaton.
-/

/-- A value as a data format denotes it.  A `moment` is a calendar date or a
time, which some formats write without quotes.  A `garbled` text has halves of
surrogate pairs in it, so that it is no text. -/
inductive Value where
  | null
  | bool (value : Bool)
  | int (value : Int)
  | fraction (value : Fraction)
  | string (text : String)
  | moment (text : String)
  | garbled
  | list (items : List Value)
  | object (members : List (String × Value))

namespace Value

/-- The value of a member, the last one if its key recurs. -/
def member? (key : String) (members : List (String × Value)) : Option Value :=
  (Entries.collapse members).lookup key

end Value
end FiniteAutomata
