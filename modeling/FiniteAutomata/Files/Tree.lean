import FiniteAutomata.Files.Path
import FiniteAutomata.Text.Quoted
import FiniteAutomata.Text.Utf8

namespace FiniteAutomata

/-!
# File trees

The files that a command can see, as a value: what stands at each path.  A
directory that holds something is there whether or not it is listed.  Reading
and writing follow a path name by name and give a new tree, or the fault of the
first step that fails; a fault keeps the name under which the caller asked for
the file.
-/

inductive FileNode where
  | directory
  | file (octets : List UInt8)
deriving DecidableEq, Repr

/-- Why a file cannot be reached. -/
inductive FileFault where
  | missing (name : String)
  | directory (name : String)
  | notDirectory (name : String)
  | exists (name : String)
  | tooLong (name : String)
  | nullCharacter
deriving DecidableEq, Repr

def FileFault.message : FileFault → String
  | .missing name => "[Errno 2] No such file or directory: " ++ Text.quoted name
  | .directory name => "[Errno 21] Is a directory: " ++ Text.quoted name
  | .notDirectory name => "[Errno 20] Not a directory: " ++ Text.quoted name
  | .exists name => "[Errno 17] File exists: " ++ Text.quoted name
  | .tooLong name => "[Errno 36] File name too long: " ++ Text.quoted name
  | .nullCharacter => "embedded null byte"

/-- The most octets that a name may have. -/
def Path.nameLimit : Nat := 255

/-- A written path has fewer octets than this. -/
def Path.lengthLimit : Nat := 4096

/-- Why a text can be no path at all. -/
def FileFault.ofText? (text : String) : Option FileFault :=
  if text.toList.contains '\x00' then some .nullCharacter
  else if Path.lengthLimit ≤ text.utf8ByteSize then some (.tooLong text)
  else none

/-- The files of a working directory, and of the directories outside of it
that are of interest. -/
structure FileTree where
  nodes : List (Path × FileNode)

/-- What a path leads to: a node, a free place in a directory, or no place at
all, because a name on the way is missing, is no directory, or is too long. -/
inductive Finding where
  | found (node : FileNode)
  | free
  | missing
  | notDirectory
  | tooLong
deriving DecidableEq, Repr

namespace FileTree

/-- What stands at a resolved path.  Every directory above the working
directory is there. -/
def nodeAt? (tree : FileTree) (path : Path) : Option FileNode :=
  if path.names.all (· == "..") then some .directory
  else
    match tree.nodes.lookup path.plain with
    | some node => some node
    | none =>
      if tree.nodes.any fun entry =>
          entry.1.base == path.plain.base && path.names.isPrefixOf entry.1.names then
        some .directory
      else
        none

/-- Follow names from a directory, which is given by its own resolved
names. -/
def follow (tree : FileTree) (base : Path.Base) : List String → List String → Finding
  | _, [] => .found .directory
  | directory, name :: rest =>
    if name = ".." then
      tree.follow base (Path.above (base != .workingDirectory) directory) rest
    else if Path.nameLimit < name.utf8ByteSize then .tooLong
    else
      match tree.nodeAt? ⟨base, directory ++ [name]⟩, rest with
      | some .directory, _ => tree.follow base (directory ++ [name]) rest
      | some (.file octets), [] => .found (.file octets)
      | some (.file _), _ => .notDirectory
      | none, [] => .free
      | none, _ => .missing

def find (tree : FileTree) (path : Path) : Finding :=
  tree.follow path.base [] path.names

def present (tree : FileTree) (path : Path) : Bool :=
  match tree.find path with
  | .found _ => true
  | _ => false

/-- Whether a written path leads to something.  One that ends with a slash or
a dot has to lead to a directory. -/
def presentAt (tree : FileTree) (text : String) : Bool :=
  (FileFault.ofText? text).isNone &&
    (match tree.find (Path.ofText text), Path.endingOf text with
      | .found .directory, _ => true
      | .found _, .name => true
      | _, _ => false)

/-- The octets of a file that is asked for under a name. -/
def read (tree : FileTree) (name : String) (path : Path) : Except FileFault (List UInt8) :=
  match FileFault.ofText? name with
  | some fault => .error fault
  | none =>
    match tree.find path with
    | .found (.file octets) => .ok octets
    | .found .directory => .error (.directory name)
    | .free => .error (.missing name)
    | .missing => .error (.missing name)
    | .notDirectory => .error (.notDirectory name)
    | .tooLong => .error (.tooLong name)

def put (tree : FileTree) (path : Path) (node : FileNode) : FileTree :=
  let place := path.resolved.plain
  ⟨(place, node) :: tree.nodes.filter fun entry => entry.1 != place⟩

/-- Write a file that is asked for under a name.  Its directory has to be
there. -/
def write (tree : FileTree) (name : String) (path : Path) (octets : List UInt8) :
    Except FileFault FileTree :=
  match FileFault.ofText? name with
  | some fault => .error fault
  | none =>
    match tree.find path with
    | .found .directory => .error (.directory name)
    | .found (.file _) => .ok (tree.put path (.file octets))
    | .free => .ok (tree.put path (.file octets))
    | .missing => .error (.missing name)
    | .notDirectory => .error (.notDirectory name)
    | .tooLong => .error (.tooLong name)

/-- The fault of writing to a written path that asks for a directory.  Behind
a slash nothing is looked up but the directory that the last name is in. -/
def directoryFault (tree : FileTree) (name : String) : FileFault :=
  let path := Path.ofText name
  let atSlash := Path.endingOf name = .slash && path.names.getLast? != some ".."
  match tree.find (if atSlash then path.parent else path) with
  | .found .directory => .directory name
  | .found (.file _) => .notDirectory name
  | .free => .missing name
  | .missing => .missing name
  | .notDirectory => .notDirectory name
  | .tooLong => .tooLong name

/-- Write a text to a file by a written path. -/
def writeText (tree : FileTree) (name text : String) : Except FileFault FileTree :=
  match FileFault.ofText? name, Path.endingOf name with
  | some fault, _ => .error fault
  | none, .name => tree.write name (Path.ofText name) (Text.encode text.toList)
  | none, _ => .error (tree.directoryFault name)

/-- The files that are new or differ from those of an earlier tree. -/
def changesSince (tree before : FileTree) : List (Path × List UInt8) :=
  tree.nodes.filterMap fun entry =>
    match entry.2 with
    | .file octets =>
      if before.nodeAt? entry.1 == some entry.2 then none else some (entry.1, octets)
    | .directory => none

/-! ## Directories -/

/-- Make a directory, unless it is there, inside of one that is there. -/
def makeInside (tree : FileTree) (path : Path) : Except FileFault FileTree :=
  let name := path.toText
  match FileFault.ofText? name with
  | some fault => .error fault
  | none =>
    match tree.find path with
    | .found .directory => .ok tree
    | .found (.file _) => .error (.exists name)
    | .free => .ok (tree.put path .directory)
    | .missing => .error (.missing name)
    | .notDirectory => .error (.notDirectory name)
    | .tooLong => .error (.tooLong name)

/-- Make a directory, given by its names from the last one on, and first the
directories on the way to it where one is missing. -/
def makeReversed (tree : FileTree) (base : Path.Base) : List String → Except FileFault FileTree
  | [] => tree.makeInside ⟨base, []⟩
  | name :: outer =>
    let path : Path := ⟨base, (name :: outer).reverse⟩
    match tree.makeInside path with
    | .error (.missing _) =>
      match tree.makeReversed base outer with
      | .ok made => made.makeInside path
      | .error fault => .error fault
    | other => other

/-- Make a directory and the directories on the way to it. -/
def makeDirectory (tree : FileTree) (path : Path) : Except FileFault FileTree :=
  tree.makeReversed path.base path.names.reverse

end FileTree
end FiniteAutomata
