import FiniteAutomata.Text.Split

namespace FiniteAutomata

/-!
# Paths

A path is a list of names, from the working directory or from the root of the
file system.  Its written form may repeat slashes and hold single dots, which
name the directory that they stand in; the normal form has neither, and is a
single dot if no name is left.  Two slashes in front are a second spelling of
the root, which the normal form keeps.
-/

/-- Where a path begins. -/
inductive Path.Base where
  | workingDirectory
  | root
  | doubledRoot
deriving DecidableEq, Repr

/-- The way to a file. -/
structure Path where
  base : Path.Base
  names : List String
deriving DecidableEq, Repr

namespace Path

def Base.toText : Base → String
  | .workingDirectory => ""
  | .root => "/"
  | .doubledRoot => "//"

/-- The beginning of a text with some slashes in front. -/
def Base.ofSlashes : Nat → Base
  | 0 => .workingDirectory
  | 2 => .doubledRoot
  | _ => .root

/-- The parts of a text between its slashes. -/
def pieces (text : String) : List String :=
  (Text.splitAt '/' text.toList).map String.ofList

def ofText (text : String) : Path :=
  ⟨.ofSlashes (text.toList.takeWhile (· == '/')).length,
    (pieces text).filter fun piece => piece != "" && piece != "."⟩

def toText (path : Path) : String :=
  if path.base = .workingDirectory ∧ path.names.isEmpty then "."
  else path.base.toText ++ Text.joined "/" path.names

/-- What a text ends with behind its last name: nothing, a slash, or a single
dot with or without slashes. -/
inductive Ending where
  | name
  | slash
  | dot
deriving DecidableEq, Repr

def endingOf (text : String) : Ending :=
  match (pieces text).reverse with
  | "" :: rest => if (rest.dropWhile (· == "")).head? == some "." then .dot else .slash
  | "." :: _ => .dot
  | _ => .name

def isRooted (path : Path) : Bool :=
  path.base != .workingDirectory

/-- A path with the usual spelling of the root. -/
def plain (path : Path) : Path :=
  if path.isRooted then { path with base := .root } else path

/-- A path to a name inside a directory. -/
def inside (path : Path) (name : String) : Path :=
  { path with names := path.names ++ [name] }

def parent (path : Path) : Path :=
  { path with names := path.names.dropLast }

/-- The names of the directory above one.  Above the root there is the root
itself. -/
def above (rooted : Bool) (names : List String) : List String :=
  match names.getLast? with
  | none => if rooted then [] else [".."]
  | some last => if last = ".." then names ++ [".."] else names.dropLast

/-- A path with every step to a parent directory carried out. -/
def resolved (path : Path) : Path :=
  { path with names := path.names.foldl climb [] }
where
  /-- Go on by one name. -/
  climb (names : List String) (name : String) : List String :=
    if name = ".." then above path.isRooted names else names ++ [name]

/-- The directories on the way to a path, from the outermost on. -/
def ancestors (path : Path) : List Path :=
  (List.range path.names.length).map fun count => { path with names := path.names.take count }

end Path
end FiniteAutomata
