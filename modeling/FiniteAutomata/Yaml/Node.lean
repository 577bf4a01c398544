import FiniteAutomata.Value.Basic

namespace FiniteAutomata
namespace Yaml

/-!
# Nodes

What a configuration text denotes: a scalar, a sequence or a mapping.  The
keys of a mapping may be any scalars.  A mapping whose keys are all texts is
an object, in which the last of equal keys counts.
-/

/-- A node of a configuration. -/
inductive Node where
  | scalar (value : Value)
  | sequence (items : List Node)
  | mapping (entries : List (Node × Node))

namespace Node

/-- A node that stands for nothing, which an empty configuration does too. -/
def isVoid : Node → Bool
  | .scalar .null => true
  | .scalar (.bool value) => !value
  | .scalar (.int value) => value == 0
  | .scalar (.fraction value) =>
    match value.nearest? with
    | some binary => binary.coefficient == 0
    | none => false
  | .scalar (.string text) => text.isEmpty
  | .scalar _ => false
  | .sequence items => items.isEmpty
  | .mapping entries => entries.isEmpty

/-- The text of a key, if it is one.  A garbled text counts as the replacement
character. -/
def keyText? : Node → Option String
  | .scalar (.string text) => some text
  | .scalar .garbled => some "\ufffd"
  | _ => none

mutual

/-- A node as a loosely typed value.  Of a mapping inside it, only entries with
texts for keys are kept. -/
def toValue : Node → Value
  | .scalar value => value
  | .sequence items => .list (toValues items)
  | .mapping entries => .object (toMembers entries)

def toValues : List Node → List Value
  | [] => []
  | item :: rest => toValue item :: toValues rest

/-- The entries of a mapping with texts for keys. -/
def toMembers : List (Node × Node) → List (String × Value)
  | [] => []
  | (key, value) :: rest =>
    match key.keyText? with
    | some name => (name, toValue value) :: toMembers rest
    | none => toMembers rest

end

/-- The members of a mapping, if all its keys are texts. -/
def members? (entries : List (Node × Node)) : Option (List (String × Value)) :=
  if entries.all fun entry => entry.1.keyText?.isSome then some (toMembers entries) else none

end Node
end Yaml
end FiniteAutomata
