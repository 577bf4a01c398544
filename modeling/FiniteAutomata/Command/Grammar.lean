import FiniteAutomata.Text.Digit
import FiniteAutomata.Text.Split

namespace FiniteAutomata
namespace Command

/-!
# Argument grammars

How a list of arguments is divided into options and positional arguments.
Options begin with a hyphen, may be abbreviated to the letters that tell them
apart, and take no value or one, which stands behind an equals sign or is the
next argument.  Positional arguments are matched as far as possible between
the options, each match taking as many arguments as it can.  After two hyphens
alone every argument is positional.

A grammar is matched against arguments by `Grammar.parse`.  Its fuel is the
number of arguments, since each round uses one up.
-/

/-- An option: its spellings, and whether it takes a value. -/
structure OptionRule where
  names : List String
  valued : Bool
deriving DecidableEq, Repr

/-- The name that an option is known by: its first spelling. -/
def OptionRule.key (rule : OptionRule) : String :=
  rule.names.headD ""

/-- How many arguments a positional takes: at most one, one or more, or a
command with everything behind it. -/
inductive Arity where
  | optional
  | several
  | command
deriving DecidableEq, Repr

/-- The options and the positionals of a command. -/
structure Grammar where
  options : List OptionRule
  positionals : List Arity
deriving DecidableEq, Repr

/-- Why there is nothing to carry out: help was asked for, or the arguments do
not fit. -/
inductive Usage where
  | help
  | misuse
deriving DecidableEq, Repr

/-- The option that asks for help, which every grammar has. -/
def helpRule : OptionRule :=
  ⟨["--help", "-h"], false⟩

/-- An argument read as an option: the option if it is known, the spelling,
and the text attached to it. -/
structure Spelled where
  rule : Option OptionRule
  name : String
  attached : Option String
deriving DecidableEq, Repr

/-- What an argument is. -/
inductive Mark where
  | word
  | dashes
  | option (spelled : Spelled)
deriving DecidableEq, Repr

/-- An argument with what it is. -/
structure Token where
  text : String
  mark : Mark
deriving DecidableEq, Repr

/-- What has been matched: options with their values in order, the arguments
of each positional, and arguments that fit nowhere. -/
structure Matched where
  options : List (String × String)
  positionals : List (List String)
  extras : List String
deriving DecidableEq, Repr

namespace Matched

def empty : Matched :=
  ⟨[], [], []⟩

def has (matched : Matched) (key : String) : Bool :=
  matched.options.any fun option => option.1 == key

/-- The last value that an option was given. -/
def value? (matched : Matched) (key : String) : Option String :=
  matched.options.reverse.lookup key

end Matched

namespace Grammar

/-! ## Telling options from words -/

def spellings (grammar : Grammar) : List (String × OptionRule) :=
  (helpRule :: grammar.options).flatMap fun rule => rule.names.map fun name => (name, rule)

def rule? (grammar : Grammar) (name : String) : Option OptionRule :=
  grammar.spellings.lookup name

/-- An argument divided at its first equals sign. -/
def divided (text : String) : String × Option String :=
  match Text.cutAt '=' text.toList with
  | some (before, behind) => (String.ofList before, some (String.ofList behind))
  | none => (text, none)

/-- The options that an argument abbreviates, or that its first letter spells
with a text attached. -/
def completions (grammar : Grammar) (text : String) : List Spelled :=
  match text.toList with
  | '-' :: '-' :: _ =>
    let (name, attached) := divided text
    (grammar.spellings.filter fun entry => name.toList.isPrefixOf entry.1.toList).map fun entry =>
      ⟨some entry.2, entry.1, attached⟩
  | chars =>
    let short := String.ofList (chars.take 2)
    grammar.spellings.filterMap fun entry =>
      if entry.1 = short then
        some ⟨some entry.2, entry.1, some (String.ofList (chars.drop 2))⟩
      else if chars.isPrefixOf entry.1.toList then some ⟨some entry.2, entry.1, none⟩
      else none

/-- Decimal digits, at least one. -/
def areDigits (text : List Char) : Bool :=
  !text.isEmpty && text.all fun c => (Text.digitValue? c).isSome

/-- A text without a line feed at its end. -/
def withoutFinalFeed (text : List Char) : List Char :=
  if text.getLast? = some '\n' then text.dropLast else text

/-- A negative number, which is a word.  A line feed may end it. -/
def isNegativeNumber (text : List Char) : Bool :=
  match withoutFinalFeed text with
  | '-' :: digits =>
    areDigits digits ||
      (match digits.span (· != '.') with
        | (whole, _ :: fraction) => (whole.isEmpty || areDigits whole) && areDigits fraction
        | _ => false)
  | _ => false

/-- What an argument is, before two hyphens alone. -/
def markOf (grammar : Grammar) (text : String) : Except Usage Mark :=
  match text.toList with
  | '-' :: _ :: _ =>
    match grammar.rule? text with
    | some rule => .ok (.option ⟨some rule, text, none⟩)
    | none =>
      let (name, attached) := divided text
      match attached, grammar.rule? name with
      | some value, some rule => .ok (.option ⟨some rule, name, some value⟩)
      | _, _ =>
        match grammar.completions text with
        | [spelled] => .ok (.option spelled)
        | _ :: _ :: _ => .error .misuse
        | [] =>
          if isNegativeNumber text.toList || text.toList.contains ' ' then .ok .word
          else .ok (.option ⟨none, text, none⟩)
  | _ => .ok .word

/-- What every argument is. -/
def tokens (grammar : Grammar) : List String → Except Usage (List Token)
  | [] => .ok []
  | text :: rest =>
    if text = "--" then .ok (⟨text, .dashes⟩ :: rest.map fun word => ⟨word, .word⟩)
    else
      match grammar.markOf text with
      | .error usage => .error usage
      | .ok mark =>
        match grammar.tokens rest with
        | .error usage => .error usage
        | .ok later => .ok (⟨text, mark⟩ :: later)

/-! ## Positional arguments -/

def isOption (token : Token) : Bool :=
  match token.mark with
  | .option _ => true
  | _ => false

def isWord (token : Token) : Bool :=
  token.mark == .word

/-- Whether tokens are what a positional takes. -/
def fits (arity : Arity) (piece : List Token) : Bool :=
  match arity with
  | .optional => !piece.any isOption && (piece.filter isWord).length ≤ 1
  | .several => !piece.any isOption && piece.any isWord
  | .command =>
    match piece.dropWhile fun token => token.mark == .dashes with
    | token :: _ => isWord token
    | [] => false

/-- How many tokens each of the positionals takes, the first ones as many as
they can. -/
def counts? : List Arity → List Token → Option (List Nat)
  | [], _ => some []
  | arity :: later, tokens =>
    (List.range (tokens.length + 1)).reverse.findSome? fun count =>
      if fits arity (tokens.take count) then
        (counts? later (tokens.drop count)).map (count :: ·)
      else
        none

/-- How many tokens each of the leading positionals takes, for as many of them
as possible. -/
def partialCounts (arities : List Arity) (tokens : List Token) : List Nat :=
  ((List.range (arities.length + 1)).reverse.findSome? fun size =>
    counts? (arities.take size) tokens).getD []

/-- The arguments of a positional: the first two hyphens alone are left out,
but not of a command. -/
def positionalTexts (arity : Arity) (piece : List Token) : List String :=
  let texts := piece.map Token.text
  if arity = .command then texts else texts.erase "--"

/-- The arguments of the leading positionals, and the tokens behind them. -/
def takePositionals : List Arity → List Nat → List Token → List (List String) × List Token
  | arity :: arities, count :: counts, tokens =>
    let (later, rest) := takePositionals arities counts (tokens.drop count)
    (positionalTexts arity (tokens.take count) :: later, rest)
  | _, _, tokens => ([], tokens)

/-! ## Options -/

/-- The options that one argument spells, with their values, and the tokens
behind them.  An unknown option is an extra; a letter without value may have
further letters attached, which have to be options too.  Two hyphens attached
as a value are taken off as a mark, so that an empty value is left. -/
def takeOption (grammar : Grammar) (text : String) (rest : List Token) :
    Nat → Spelled → Except Usage (Matched × List Token)
  | 0, _ => .error .misuse
  | fuel + 1, spelled =>
    match spelled.rule with
    | none => .ok ({ Matched.empty with extras := [text] }, rest)
    | some rule =>
      match spelled.attached, rule.valued with
      | none, false => .ok ({ Matched.empty with options := [(rule.key, "")] }, rest)
      | none, true =>
        match rest with
        | ⟨value, .word⟩ :: later =>
          .ok ({ Matched.empty with options := [(rule.key, value)] }, later)
        | _ => .error .misuse
      | some value, true =>
        let kept := if value = "--" then "" else value
        .ok ({ Matched.empty with options := [(rule.key, kept)] }, rest)
      | some value, false =>
        match value.toList with
        | [] => .error .misuse
        | letter :: more =>
          let name := String.ofList ['-', letter]
          match if spelled.name.startsWith "--" then none else grammar.rule? name with
          | none => .error .misuse
          | some next =>
            let attached := if more.isEmpty then none else some (String.ofList more)
            match grammar.takeOption text rest fuel ⟨some next, name, attached⟩ with
            | .error usage => .error usage
            | .ok (matched, later) =>
              .ok ({ matched with options := (rule.key, "") :: matched.options }, later)

/-! ## Whole lists of arguments -/

/-- Put what was matched first in front. -/
def join (first second : Matched) : Matched :=
  ⟨first.options ++ second.options, first.positionals ++ second.positionals,
    first.extras ++ second.extras⟩

/-- Whether help was asked for. -/
def asksHelp (matched : Matched) : Bool :=
  matched.has helpRule.key

/-- Match tokens against the positionals that are left.  What remains of them
at the end is given too. -/
def matchTokens (grammar : Grammar) :
    Nat → List Arity → List Token → Except Usage (Matched × List Arity)
  | 0, arities, _ => .ok (Matched.empty, arities)
  | fuel + 1, arities, tokens =>
    match tokens.span fun token => !isOption token with
    | (_, []) =>
      let counts := partialCounts arities tokens
      let (found, rest) := takePositionals arities counts tokens
      .ok (⟨[], found, rest.map Token.text⟩, arities.drop counts.length)
    | ([], ⟨text, .option spelled⟩ :: rest) =>
      match grammar.takeOption text rest (text.length + 1) spelled with
      | .error usage => .error usage
      | .ok (matched, later) =>
        if asksHelp matched then .error .help
        else
          match grammar.matchTokens fuel arities later with
          | .error usage => .error usage
          | .ok (more, left) => .ok (join matched more, left)
    | (words, option) =>
      let counts := partialCounts arities tokens
      let (found, rest) := takePositionals arities counts tokens
      let matched : Matched :=
        if rest.length < tokens.length then ⟨[], found, []⟩
        else ⟨[], found, words.map Token.text⟩
      let later := if rest.length < tokens.length then rest else option
      match grammar.matchTokens fuel (arities.drop counts.length) later with
      | .error usage => .error usage
      | .ok (more, left) => .ok (join matched more, left)

/-- Match arguments.  Every positional but an optional one has to be there;
arguments that fit nowhere are left to the caller. -/
def parse (grammar : Grammar) (arguments : List String) : Except Usage Matched :=
  match grammar.tokens arguments with
  | .error usage => .error usage
  | .ok tokens =>
    match grammar.matchTokens (2 * tokens.length + 1) grammar.positionals tokens with
    | .error usage => .error usage
    | .ok (matched, left) =>
      if left.all fun arity => arity == .optional then .ok matched else .error .misuse

end Grammar
end Command
end FiniteAutomata
