import FiniteAutomata.Files.Tree
import FiniteAutomata.Specification.Reader

namespace FiniteAutomata
namespace Specification

open Log (Reported)

/-!
# Specifications in files

A specification file is UTF-8 text, of which every carriage return counts as
a line feed.
-/

/-- Why a file gives no automaton. -/
inductive FileFailure where
  | file (fault : FileFault)
  | octets (fault : Text.DecodingFault)
  | specification (fault : LocatedFault)
deriving DecidableEq, Repr

def readOctets (truncate : Bool) (octets : List UInt8) : Reported FileFailure Automaton :=
  match Text.decode octets with
  | .error fault => .silent (.error (.octets fault))
  | .ok text =>
    (read truncate (String.ofList (Text.normalizeBreaks text))).widen FileFailure.specification

def readPath (truncate : Bool) (tree : FileTree) (path : Path) : Reported FileFailure Automaton :=
  match tree.read path.toText path with
  | .error fault => .silent (.error (.file fault))
  | .ok octets => readOctets truncate octets

end Specification
end FiniteAutomata
