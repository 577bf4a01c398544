import FiniteAutomata.Entries

namespace FiniteAutomata
namespace Dot

/-!
# Reading DOT

What a text in the DOT language draws.  The text is cut into tokens one
character after the other, the tokens are put together to statements, and the
statements draw a graph one after the other.

Between quotes an ID goes to the first quote without a backslash in front of
it, a backslash with a quote stands for the quote, and every other character
for itself.  Spelled with or without quotes an ID is the same, but only words
without quotes are keywords.

Of the language are left out: undirected graphs, subgraphs, ports, comments,
IDs in markup, fractions, negative numbers, and IDs that are put together of
quoted parts.
-/

/-! ## Tokens -/

/-- The words that are no IDs unless they are quoted. -/
inductive Keyword where
  | digraph
  | graph
  | node
  | edge
  | subgraph
  | strict
deriving DecidableEq, Repr

inductive Mark where
  | openBrace
  | closeBrace
  | openBracket
  | closeBracket
  | comma
  | semicolon
deriving DecidableEq, Repr

/-- A token.  An ID behind an equals sign is a value, and the sign is no token
of its own. -/
inductive Token where
  | id (text : String)
  | value (text : String)
  | keyword (keyword : Keyword)
  | mark (mark : Mark)
  | arrow
deriving DecidableEq, Repr

/-- Where a scan stands: outside of IDs, in a word, behind the hyphen of an
arrow, or between quotes, where a backslash that was just read waits for the
next character.  An equals sign may be waiting for its value. -/
inductive Mode where
  | outside (valued : Bool)
  | word (valued : Bool) (text : List Char)
  | hyphen
  | quoted (valued : Bool) (text : List Char)
  | escaping (valued : Bool) (text : List Char)
deriving DecidableEq, Repr

def isWordChar (c : Char) : Bool :=
  c.isAlphanum || c == '_' || 128 ≤ c.toNat

def isSpace (c : Char) : Bool :=
  c == ' ' || c == '\t' || c == '\n' || c == '\r'

def mark? : Char → Option Mark
  | '\x7b' => some .openBrace
  | '\x7d' => some .closeBrace
  | '[' => some .openBracket
  | ']' => some .closeBracket
  | ',' => some .comma
  | ';' => some .semicolon
  | _ => none

/-- Keywords may be written in capitals. -/
def keyword? (text : List Char) : Option Keyword :=
  [("digraph".toList, Keyword.digraph), ("graph".toList, .graph), ("node".toList, .node),
    ("edge".toList, .edge), ("subgraph".toList, .subgraph), ("strict".toList, .strict)].lookup
      (text.map Char.toLower)

/-- A word that begins with a digit has to be a number. -/
def isBare (text : List Char) : Bool :=
  !text.head?.any Char.isDigit || text.all Char.isDigit

def idToken (valued : Bool) (text : List Char) : Token :=
  if valued then .value (String.ofList text) else .id (String.ofList text)

/-- The token of a word.  A keyword is no value. -/
def wordToken? (valued : Bool) (text : List Char) : Option Token :=
  match keyword? text with
  | some keyword => if valued then none else some (.keyword keyword)
  | none => if isBare text then some (idToken valued text) else none

namespace Mode

/-- A character outside of IDs. -/
def enter (valued : Bool) (c : Char) : Option (List Token × Mode) :=
  if isSpace c then some ([], .outside valued)
  else if isWordChar c then some ([], .word valued [c])
  else if c = '"' then some ([], .quoted valued [])
  else if valued then none
  else if c = '=' then some ([], .outside true)
  else if c = '-' then some ([], .hyphen)
  else (mark? c).map fun mark => ([.mark mark], .outside false)

/-- One character: the tokens that it completes and where the scan stands
behind it. -/
def read : Mode → Char → Option (List Token × Mode)
  | .outside valued, c => enter valued c
  | .word valued text, c =>
    if isWordChar c then some ([], .word valued (text ++ [c]))
    else
      match wordToken? valued text with
      | none => none
      | some token => (enter false c).map fun entered => (token :: entered.1, entered.2)
  | .hyphen, c => if c = '>' then some ([.arrow], .outside false) else none
  | .quoted valued text, c =>
    if c = '"' then some ([idToken valued text], .outside false)
    else if c = '\\' then some ([], .escaping valued text)
    else some ([], .quoted valued (text ++ [c]))
  | .escaping valued text, c =>
    if c = '"' then some ([], .quoted valued (text ++ ['"']))
    else if c = '\\' then some ([], .escaping valued (text ++ ['\\']))
    else some ([], .quoted valued (text ++ ['\\', c]))

end Mode

/-- The tokens that a text completes and where the scan stands at its end. -/
def scan (mode : Mode) : List Char → Option (List Token × Mode)
  | [] => some ([], mode)
  | c :: rest =>
    match mode.read c with
    | none => none
    | some (tokens, next) =>
      (scan next rest).map fun scanned => (tokens ++ scanned.1, scanned.2)

/-- The tokens of a text, which may not end inside of one. -/
def tokens? (text : String) : Option (List Token) :=
  match scan (.outside false) text.toList with
  | some (tokens, .outside false) => some tokens
  | _ => none

/-! ## Statements -/

inductive Statement where
  /-- A property of the graph. -/
  | setting (key value : String)
  /-- What nodes, edges or graphs have from here on. -/
  | defaults (kind : Keyword) (attributes : List (String × String))
  /-- A node alone, or a path of edges from node to node. -/
  | chain (source : String) (targets : List String) (attributes : List (String × String))
deriving DecidableEq, Repr

/-- The entries of attribute lists up to the closing bracket of the last. -/
def entries : List Token → Option (List (String × String) × List Token)
  | .mark .closeBracket :: .mark .openBracket :: rest => entries rest
  | .mark .closeBracket :: rest => some ([], rest)
  | .id key :: .value text :: .mark .comma :: rest =>
    (entries rest).map fun read => ((key, text) :: read.1, read.2)
  | .id key :: .value text :: .mark .semicolon :: rest =>
    (entries rest).map fun read => ((key, text) :: read.1, read.2)
  | .id key :: .value text :: rest =>
    (entries rest).map fun read => ((key, text) :: read.1, read.2)
  | _ => none

/-- The attributes of a statement, which may have none. -/
def attributes : List Token → Option (List (String × String) × List Token)
  | .mark .openBracket :: rest => entries rest
  | rest => some ([], rest)

/-- The nodes that a path goes on to. -/
def path : List Token → List String × List Token
  | .arrow :: .id target :: rest => (target :: (path rest).1, (path rest).2)
  | rest => ([], rest)

def statement? : List Token → Option (Statement × List Token)
  | .id key :: .value text :: rest => some (.setting key text, rest)
  | .id name :: rest =>
    (attributes (path rest).2).map fun read => (.chain name (path rest).1 read.1, read.2)
  | .keyword kind :: .mark .openBracket :: rest =>
    if kind = .graph ∨ kind = .node ∨ kind = .edge then
      (entries rest).map fun read => (.defaults kind read.1, read.2)
    else none
  | _ => none

/-- The statements up to the closing brace, at which the text ends.  There are
at most as many as there are tokens. -/
def statements : Nat → List Token → Option (List Statement)
  | _, [.mark .closeBrace] => some []
  | 0, _ => none
  | bound + 1, tokens =>
    match statement? tokens with
    | none => none
    | some (statement, .mark .semicolon :: rest) =>
      (statements bound rest).map fun more => statement :: more
    | some (statement, rest) => (statements bound rest).map fun more => statement :: more

/-- The statements of a directed graph, with a name or without. -/
def parse : List Token → Option (List Statement)
  | .keyword .digraph :: .mark .openBrace :: rest => statements rest.length rest
  | .keyword .digraph :: .id _ :: .mark .openBrace :: rest => statements rest.length rest
  | _ => none

/-! ## Graphs -/

structure Edge where
  source : String
  target : String
  attributes : List (String × String)
deriving DecidableEq, Repr

/-- Nodes with their attributes in the order in which they are named first, and
edges in their order; with what new ones have by default. -/
structure Graph where
  nodeDefaults : List (String × String)
  edgeDefaults : List (String × String)
  nodes : List (String × List (String × String))
  edges : List Edge
deriving DecidableEq, Repr

namespace Graph

def empty : Graph :=
  ⟨[], [], [], []⟩

/-- Name a node and give it attributes.  A new node has the defaults that hold
here. -/
def declare (graph : Graph) (name : String) (attributes : List (String × String)) : Graph :=
  let known := (graph.nodes.lookup name).getD graph.nodeDefaults
  { graph with nodes := Entries.insert name (Entries.insertAll known attributes) graph.nodes }

/-- Draw an edge.  Its ends are nodes from here on. -/
def join (graph : Graph) (source target : String) (attributes : List (String × String)) : Graph :=
  let named := (graph.declare source []).declare target []
  { named with
    edges := named.edges ++ [⟨source, target, Entries.insertAll named.edgeDefaults attributes⟩] }

/-- Draw an edge from each node of a path to the next. -/
def joinAll (graph : Graph) (source : String) (attributes : List (String × String)) :
    List String → Graph
  | [] => graph
  | target :: rest => (graph.join source target attributes).joinAll target attributes rest

def add (graph : Graph) : Statement → Graph
  | .setting _ _ => graph
  | .defaults .node attributes =>
    { graph with nodeDefaults := Entries.insertAll graph.nodeDefaults attributes }
  | .defaults .edge attributes =>
    { graph with edgeDefaults := Entries.insertAll graph.edgeDefaults attributes }
  | .defaults _ _ => graph
  | .chain name [] attributes => graph.declare name attributes
  | .chain source targets attributes => graph.joinAll source attributes targets

/-- The graph after statements. -/
def draw (graph : Graph) (statements : List Statement) : Graph :=
  statements.foldl add graph

def names (graph : Graph) : List String :=
  Entries.keys graph.nodes

def property? (graph : Graph) (name key : String) : Option String :=
  (graph.nodes.lookup name).bind fun attributes => attributes.lookup key

/-- The labels of the edges from a node to a node, one for each edge. -/
def labels (graph : Graph) (source target : String) : List (Option String) :=
  (graph.edges.filter fun edge => edge.source = source ∧ edge.target = target).map fun edge =>
    edge.attributes.lookup "label"

/-- The edges at a node, as pairs of their ends. -/
def edgesAt (graph : Graph) (name : String) : List (String × String) :=
  (graph.edges.filter fun edge => edge.source = name ∨ edge.target = name).map fun edge =>
    (edge.source, edge.target)

end Graph

/-- The graph that a text draws, if it is well formed. -/
def read? (text : String) : Option Graph :=
  (tokens? text).bind fun tokens => (parse tokens).map Graph.empty.draw

end Dot
end FiniteAutomata
