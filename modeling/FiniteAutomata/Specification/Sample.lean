namespace FiniteAutomata
namespace Specification

/-!
# The sample

A specification to try things on: an automaton on binary words, of which the
state q1q2 is an accepting trap that is entered once a zero follows a one.
-/

def sample : String :=
  "\n" ++
  "alphabet=\x7b0,1\x7d\n" ++
  "state=\x7bq0, q1, q1q2, q2\x7d\n" ++
  "start_state=q0\n" ++
  "F=\x7bq1q2, q2\x7d\n" ++
  "(q0, 1)->q1\n" ++
  "(q0, 0)->q0\n" ++
  "(q1, 1)->q1\n" ++
  "(q1, 0)->q1q2\n" ++
  "(q1q2, 0)->q1q2\n" ++
  "(q1q2, 1)->q1q2\n" ++
  "(q2, 0)->q2\n" ++
  "(q2, 1)->q1q2\n"

end Specification
end FiniteAutomata
