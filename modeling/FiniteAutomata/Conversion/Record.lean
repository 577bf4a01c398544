import FiniteAutomata.Conversion.Scalar

namespace FiniteAutomata
namespace Conversion

/-!
# Fields, lists and maps

A conversion either succeeds or gives all problems, those of an earlier field
before those of a later one.  What a field is missing is its default, if it
has one.
-/

/-- A converted value or its problems. -/
abbrev Converted (α : Type) := Except (List Problem) α

/-- The trouble of a value as its only problem. -/
def alone {α : Type} (converted : Except Trouble α) : Converted α :=
  converted.mapError fun trouble => [⟨[], trouble⟩]

/-- Problems seen from one step further out. -/
def inside {α : Type} (place : Place) (converted : Converted α) : Converted α :=
  converted.mapError fun problems =>
    problems.map fun problem => { problem with places := place :: problem.places }

/-- Two conversions side by side, with the problems of both. -/
def both {α β : Type} (first : Converted α) (second : Converted β) : Converted (α × β) :=
  match first, second with
  | .ok value, .ok other => .ok (value, other)
  | .ok _, .error problems => .error problems
  | .error problems, .ok _ => .error problems
  | .error problems, .error others => .error (problems ++ others)

/-- The items of a list from an index on. -/
def items {α : Type} (convert : Value → Converted α) : Nat → List Value → Converted (List α)
  | _, [] => .ok []
  | index, item :: rest =>
    (both (inside (.item index) (convert item)) (items convert (index + 1) rest)).map
      fun parts => parts.1 :: parts.2

def list {α : Type} (form : Form) (convert : Value → Converted α) : Value → Converted (List α)
  | .list values => items convert 0 values
  | _ => alone (.error (.notList form))

def entries {α : Type} (convert : Value → Converted α) :
    List (String × Value) → Converted (List (String × α))
  | [] => .ok []
  | (key, value) :: rest =>
    (both (inside (.field key) (convert value)) (entries convert rest)).map
      fun parts => (key, parts.1) :: parts.2

/-- The entries of a map that are converted: in JSON all that are written,
elsewhere one for each key. -/
def Form.entries (form : Form) (members : List (String × Value)) : List (String × Value) :=
  match form with
  | .plain => Entries.collapse members
  | .json => members

def map {α : Type} (form : Form) (convert : Value → Converted α) :
    Value → Converted (List (String × α))
  | .object members => entries convert (form.entries members)
  | _ => alone (.error (.notMap form))

/-- A field that has to be there. -/
def field {α : Type} (members : List (String × Value)) (name : String)
    (convert : Value → Converted α) : Converted α :=
  inside (.field name)
    (match Value.member? name members with
      | some value => convert value
      | none => alone (.error .absent))

/-- A field that may be left out. -/
def fieldOr {α : Type} (default : α) (members : List (String × Value)) (name : String)
    (convert : Value → Converted α) : Converted α :=
  inside (.field name)
    (match Value.member? name members with
      | some value => convert value
      | none => .ok default)

/-- A value that may be null. -/
def optional {α : Type} (convert : Value → Converted α) : Value → Converted (Option α)
  | .null => .ok none
  | value => (convert value).map some

end Conversion
end FiniteAutomata
