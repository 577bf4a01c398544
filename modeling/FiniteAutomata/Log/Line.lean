import FiniteAutomata.Json.Writer
import FiniteAutomata.Log.Entry

namespace FiniteAutomata
namespace Log

/-!
# Log lines

The written form of an entry: one line with a JSON record that holds the
fields, and behind them what happened, how grave it is and which part tells
it.
-/

def Entry.toValue (entry : Entry) : Value :=
  .object (entry.fields ++
    [("event", .string entry.event), ("level", .string entry.level.name),
      ("logger", .string entry.source)])

def Entry.line (entry : Entry) : String :=
  Json.write entry.toValue ++ "\n"

def linesOf (entries : List Entry) : String :=
  String.join (entries.map Entry.line)

end Log
end FiniteAutomata
