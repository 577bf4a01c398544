import FiniteAutomata.Yaml.Node
import FiniteAutomata.Yaml.Scalar
import FiniteAutomata.Yaml.Tree

namespace FiniteAutomata
namespace Yaml

/-!
# Reading a configuration

A configuration is one document of YAML 1.1: block mappings and sequences by
their columns, flow mappings and sequences in brackets, plain and quoted
scalars, comments, and marks between documents.  Tags, anchors, directives and
block scalars are no part of the grammar.

The tree of a document becomes a node in two steps.  First everything in it is
settled, level by level from the outside in: the merge keys of mappings are
carried out, keys have to be scalars, and scalars have to denote something.  A
text that breaks the grammar anywhere is refused before that.  Then the node is
made, for which nothing can be wrong any more.
-/

/-! ## Scalars -/

/-- The text of a scalar as a value. -/
def Written.textValue (written : Written) : Value :=
  if written.intact then .string (String.ofList written.text) else .garbled

def Written.value (written : Written) : Except Fault Value :=
  if written.plain then
    match Plain.ofText written.text with
    | .value value => value
    | .merge => .error .malformed
    | .default => .error .malformed
  else
    .ok written.textValue

/-- What a scalar denotes as the key of a mapping.  The default key is a
text. -/
def Written.keyValue (written : Written) : Except Fault Value :=
  match written.plain, Plain.ofText written.text with
  | true, .default => .ok written.textValue
  | _, _ => written.value

/-- Whether a scalar is a merge key. -/
def Written.merges (written : Written) : Bool :=
  match written.plain, Plain.ofText written.text with
  | true, .merge => true
  | _, _ => false

namespace Tree

/-! ## Mappings -/

def isMerge (entry : Tree × Tree) : Bool :=
  match entry.1 with
  | .scalar written => written.merges
  | _ => false

/-- Lists of entries after one another, if all of them are there. -/
def gathered : List (Except Fault (List (Tree × Tree))) → Except Fault (List (Tree × Tree))
  | [] => .ok []
  | .error fault :: _ => .error fault
  | .ok entries :: rest => (gathered rest).map (entries ++ ·)

/-- The entries of a mapping after its merges: those of the merged mappings,
and behind them its own, which count before them.  Of the mappings in a
sequence the first counts most. -/
def mergedEntries : Nat → List (Tree × Tree) → Except Fault (List (Tree × Tree))
  | 0, _ => .error .tooDeep
  | fuel + 1, entries =>
    let entriesOf (tree : Tree) : Except Fault (List (Tree × Tree)) :=
      match tree with
      | .mapping inner => mergedEntries fuel inner
      | _ => .error .malformed
    let merged :=
      (entries.filter isMerge).map fun entry =>
        match entry.2 with
        | .sequence items => gathered (items.map entriesOf).reverse
        | other => entriesOf other
    (gathered merged).map (· ++ entries.filter fun entry => !isMerge entry)

/-- The entries of a mapping after its merges. -/
def entriesAfterMerges (entries : List (Tree × Tree)) : Except Fault (List (Tree × Tree)) :=
  mergedEntries (nestingLimit + 1) entries

/-! ## Settling what is written -/

/-- The collections among some trees, if every scalar among them denotes
something. -/
def collections : List Tree → Except Fault (List Tree)
  | [] => .ok []
  | .scalar written :: rest =>
    match written.value with
    | .ok _ => collections rest
    | .error fault => .error fault
  | tree :: rest => (collections rest).map (tree :: ·)

/-- The collections among the values of entries, if every key is a scalar and
every scalar denotes something. -/
def entryCollections : List (Tree × Tree) → Except Fault (List Tree)
  | [] => .ok []
  | (key, value) :: rest =>
    match key with
    | .scalar written =>
      match written.keyValue, collections [value] with
      | .error fault, _ => .error fault
      | .ok _, .error fault => .error fault
      | .ok _, .ok inner => (entryCollections rest).map (inner ++ ·)
    | _ => .error .malformed

/-- The collections right inside of a tree. -/
def innerCollections : Tree → Except Fault (List Tree)
  | .scalar written => written.value.map fun _ => []
  | .sequence items => collections items
  | .mapping entries => (entriesAfterMerges entries).bind entryCollections

/-- The collections right inside of some trees. -/
def allInner : List Tree → Except Fault (List Tree)
  | [] => .ok []
  | tree :: rest =>
    match innerCollections tree with
    | .error fault => .error fault
    | .ok inner => (allInner rest).map (inner ++ ·)

/-- The first fault of some trees, level by level. -/
def fault? : Nat → List Tree → Option Fault
  | 0, _ => none
  | fuel + 1, trees =>
    match allInner trees with
    | .error fault => some fault
    | .ok [] => none
    | .ok inner => fault? fuel inner

/-! ## Nodes -/

/-- The value of a scalar that has been settled. -/
def settled (value : Except Fault Value) : Value :=
  match value with
  | .ok value => value
  | .error _ => .null

/-- The key of an entry that has been settled. -/
def keyNode : Tree → Node
  | .scalar written => .scalar (settled written.keyValue)
  | _ => .scalar .null

/-- The node of a tree that has been settled. -/
def toNode : Nat → Tree → Node
  | 0, _ => .scalar .null
  | fuel + 1, tree =>
    match tree with
    | .scalar written => .scalar (settled written.value)
    | .sequence items => .sequence (items.map (toNode fuel))
    | .mapping entries =>
      match entriesAfterMerges entries with
      | .ok merged => .mapping (merged.map fun entry => (keyNode entry.1, toNode fuel entry.2))
      | .error _ => .mapping []

end Tree

def read (text : String) : Except Fault Node :=
  let chars := text.toList
  if !chars.all isAllowed then .error .malformed
  else
    match Tree.ofTokens (tokens chars) with
    | .error fault => .error fault
    | .ok tree =>
      match Tree.fault? (nestingLimit + 1) [tree] with
      | some fault => .error fault
      | none => .ok (tree.toNode (nestingLimit + 1))

end Yaml
end FiniteAutomata
