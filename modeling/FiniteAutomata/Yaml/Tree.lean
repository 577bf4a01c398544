import FiniteAutomata.Yaml.Token

namespace FiniteAutomata
namespace Yaml

/-!
# Trees of tokens

The tokens of a configuration as a tree of scalars, sequences and mappings, as
they are written: what a scalar denotes is not asked here.  Blocks and brackets
give the same trees.  A key without a value has an absent scalar for it, and so
has a value without a key; an item of a sequence in brackets may be a mapping
of one entry without braces of its own.

`node` and its companions read a tree at the front of some tokens and give the
tokens behind it.  Their fuel bounds the number of nested calls; each either
takes a token or is followed by a call that does.
-/

/-- A configuration as it is written. -/
inductive Tree where
  | scalar (written : Written)
  | sequence (items : List Tree)
  | mapping (entries : List (Tree × Tree))

/-- The deepest nesting of sequences and mappings. -/
def nestingLimit : Nat := 488

namespace Tree

def absent : Tree := .scalar .absent

/-- A tree at the front of some tokens, and the tokens behind it. -/
abbrev Found (α : Type) := Except Fault (α × List Token)

/-- The fault of tokens that do not fit, or of a text that breaks off. -/
def refuse {α : Type} : List Token → Found α
  | .broken fault :: _ => .error fault
  | _ => .error .malformed

/-- Whether tokens begin with one of some tokens. -/
def starts (choices tokens : List Token) : Bool :=
  match tokens with
  | token :: _ => choices.contains token
  | [] => false

/-- The tokens behind a token, if they begin with it. -/
def behind? (token : Token) (tokens : List Token) : Option (List Token) :=
  match tokens with
  | first :: rest => if first = token then some rest else none
  | [] => none

/-- Change a tree that has been found. -/
def Found.change {α β : Type} (change : α → β) (found : Found α) : Found β :=
  found.map fun parts => (change parts.1, parts.2)

/-- Go on behind a tree that has been found. -/
def Found.andThen {α β : Type} (found : Found α) (next : α → List Token → Found β) : Found β :=
  match found with
  | .ok (value, rest) => next value rest
  | .error fault => .error fault

mutual

/-- A node.  Blocks may begin here only if `block`, and a sequence in the
column of its mapping only if `loose`. -/
def node (fuel depth : Nat) (block loose : Bool) (tokens : List Token) : Found Tree :=
  match fuel with
  | 0 => .error .malformed
  | fuel + 1 =>
    match tokens, depth with
    | .scalar written :: rest, _ => .ok (.scalar written, rest)
    | .hyphen :: rest, depth =>
      if !loose then .error .malformed
      else
        match depth with
        | 0 => .error .tooDeep
        | depth + 1 => (looseItems fuel depth (.hyphen :: rest)).change .sequence
    | .openBracket :: rest, depth + 1 => (bracketItems fuel depth true rest).change .sequence
    | .openBrace :: rest, depth + 1 => (braceEntries fuel depth true rest).change .mapping
    | .openSequence :: rest, depth =>
      if !block then .error .malformed
      else
        match depth with
        | 0 => .error .tooDeep
        | depth + 1 => (blockItems fuel depth rest).change .sequence
    | .openMapping :: rest, depth =>
      if !block then .error .malformed
      else
        match depth with
        | 0 => .error .tooDeep
        | depth + 1 => (blockEntries fuel depth rest).change .mapping
    | .openBracket :: _, 0 => .error .tooDeep
    | .openBrace :: _, 0 => .error .tooDeep
    | other, _ => refuse other

/-- A node, unless one of some tokens shows that there is none. -/
def nodeOrAbsent (fuel depth : Nat) (block : Bool) (ends : List Token) (tokens : List Token) :
    Found Tree :=
  match fuel with
  | 0 => .error .malformed
  | fuel + 1 =>
    if starts ends tokens then .ok (absent, tokens) else node fuel depth block false tokens

def blockItems (fuel depth : Nat) (tokens : List Token) : Found (List Tree) :=
  match fuel with
  | 0 => .error .malformed
  | fuel + 1 =>
    match tokens with
    | .hyphen :: rest =>
      (nodeOrAbsent fuel depth true [.hyphen, .closeBlock] rest).andThen fun item behind =>
        (blockItems fuel depth behind).change (item :: ·)
    | .closeBlock :: rest => .ok ([], rest)
    | other => refuse other

/-- The items of a sequence in the column of its mapping. -/
def looseItems (fuel depth : Nat) (tokens : List Token) : Found (List Tree) :=
  match fuel with
  | 0 => .error .malformed
  | fuel + 1 =>
    match tokens with
    | .hyphen :: rest =>
      (nodeOrAbsent fuel depth true [.hyphen, .key, .colon, .closeBlock] rest).andThen
        fun item behind => (looseItems fuel depth behind).change (item :: ·)
    | .broken fault :: _ => .error fault
    | other => .ok ([], other)

/-- A key or a value of a block mapping. -/
def blockPart (fuel depth : Nat) (tokens : List Token) : Found Tree :=
  match fuel with
  | 0 => .error .malformed
  | fuel + 1 =>
    if starts [.key, .colon, .closeBlock] tokens then .ok (absent, tokens)
    else node fuel depth true true tokens

def blockEntries (fuel depth : Nat) (tokens : List Token) : Found (List (Tree × Tree)) :=
  match fuel with
  | 0 => .error .malformed
  | fuel + 1 =>
    match tokens with
    | .key :: rest =>
      (blockPart fuel depth rest).andThen fun key behind =>
        (blockValue fuel depth behind).andThen fun value after =>
          (blockEntries fuel depth after).change ((key, value) :: ·)
    | .closeBlock :: rest => .ok ([], rest)
    | other => refuse other

/-- The value of a key of a block mapping, if a colon follows the key. -/
def blockValue (fuel depth : Nat) (tokens : List Token) : Found Tree :=
  match fuel with
  | 0 => .error .malformed
  | fuel + 1 =>
    match tokens with
    | .colon :: rest => blockPart fuel depth rest
    | .broken fault :: _ => .error fault
    | other => .ok (absent, other)

/-- The items of a sequence in brackets and its end.  In front of all items
but the first there is a comma, and there may be one behind the last. -/
def bracketItems (fuel depth : Nat) (first : Bool) (tokens : List Token) : Found (List Tree) :=
  match fuel with
  | 0 => .error .malformed
  | fuel + 1 =>
    match behind? .closeBracket tokens with
    | some rest => .ok ([], rest)
    | none =>
      match if first then some tokens else behind? .comma tokens with
      | none => refuse tokens
      | some place =>
        match place with
        | .closeBracket :: rest => .ok ([], rest)
        | .key :: rest =>
          match depth with
          | 0 => .error .tooDeep
          | inner + 1 =>
            (nodeOrAbsent fuel inner false [.colon, .comma, .closeBracket] rest).andThen
              fun key behind =>
                (flowValue fuel inner .closeBracket behind).andThen fun value after =>
                  (bracketItems fuel depth false after).change (.mapping [(key, value)] :: ·)
        | other =>
          (node fuel depth false false other).andThen fun item behind =>
            (bracketItems fuel depth false behind).change (item :: ·)

/-- The value of a key inside of brackets or braces, if a colon follows the
key. -/
def flowValue (fuel depth : Nat) (close : Token) (tokens : List Token) : Found Tree :=
  match fuel with
  | 0 => .error .malformed
  | fuel + 1 =>
    match tokens with
    | .colon :: rest => nodeOrAbsent fuel depth false [.comma, close] rest
    | .broken fault :: _ => .error fault
    | other => .ok (absent, other)

/-- The entries of a mapping in braces and its end.  A node that is no key has
no value. -/
def braceEntries (fuel depth : Nat) (first : Bool) (tokens : List Token) :
    Found (List (Tree × Tree)) :=
  match fuel with
  | 0 => .error .malformed
  | fuel + 1 =>
    match behind? .closeBrace tokens with
    | some rest => .ok ([], rest)
    | none =>
      match if first then some tokens else behind? .comma tokens with
      | none => refuse tokens
      | some place =>
        match place with
        | .closeBrace :: rest => .ok ([], rest)
        | .key :: rest =>
          (nodeOrAbsent fuel depth false [.colon, .comma, .closeBrace] rest).andThen
            fun key behind =>
              (flowValue fuel depth .closeBrace behind).andThen fun value after =>
                (braceEntries fuel depth false after).change ((key, value) :: ·)
        | other =>
          (node fuel depth false false other).andThen fun key behind =>
            (braceEntries fuel depth false behind).change ((key, absent) :: ·)

end

/-! ## Documents -/

/-- The tokens without the closing marks in front. -/
def withoutClosings : List Token → List Token
  | .mark .closing :: rest => withoutClosings rest
  | tokens => tokens

/-- The end of the only document: behind it there may be closing marks, and
nothing else. -/
def conclude (found : Found Tree) : Except Fault Tree :=
  match found with
  | .error fault => .error fault
  | .ok (tree, rest) =>
    match withoutClosings rest with
    | [] => .ok tree
    | .broken fault :: _ => .error fault
    | _ => .error .malformed

/-- The tree of the only document that tokens make up. -/
def ofTokens (tokens : List Token) : Except Fault Tree :=
  let fuel := 3 * tokens.length + 3
  match tokens with
  | [] => .ok absent
  | .mark .opening :: rest =>
    conclude
      (if rest.isEmpty || starts [.mark .opening, .mark .closing] rest then .ok (absent, rest)
      else node fuel nestingLimit true false rest)
  | _ => conclude (node fuel nestingLimit true false tokens)

end Tree
end Yaml
end FiniteAutomata
