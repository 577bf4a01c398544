import FiniteAutomata.Value.Basic

namespace FiniteAutomata
namespace Conversion

/-!
# Problems of a conversion

A loosely typed value is converted to a record field by field, and everything
that is wrong with it is listed: where, of what kind, and in which words.  A
few wordings depend on whether the value was written as JSON, where a list is
an array and a map is an object.
-/

/-- Where a value came from. -/
inductive Form where
  | plain
  | json
deriving DecidableEq, Repr

/-- One step into a value. -/
inductive Place where
  | field (name : String)
  | item (index : Nat)
deriving DecidableEq, Repr

/-- What is wrong with a value. -/
inductive Trouble where
  | absent
  | notString
  | notUnicode
  | notFlag
  | unclearFlag
  | notWhole
  | unreadableWhole
  | hugeWhole
  | fractionalWhole
  | infiniteWhole
  | notPositive
  | notList (form : Form)
  | notMap (form : Form)
  | notRecord (form : Form) (record : String)
  | refused (message : String)
  | notJson
deriving DecidableEq, Repr

def Trouble.kind : Trouble → String
  | .absent => "missing"
  | .notString => "string_type"
  | .notUnicode => "string_unicode"
  | .notFlag => "bool_type"
  | .unclearFlag => "bool_parsing"
  | .notWhole => "int_type"
  | .unreadableWhole => "int_parsing"
  | .hugeWhole => "int_parsing_size"
  | .fractionalWhole => "int_from_float"
  | .infiniteWhole => "finite_number"
  | .notPositive => "greater_than"
  | .notList _ => "list_type"
  | .notMap _ => "dict_type"
  | .notRecord .. => "model_type"
  | .refused _ => "value_error"
  | .notJson => "json_invalid"

def Trouble.message? : Trouble → Option String
  | .absent => some "Field required"
  | .notString => some "Input should be a valid string"
  | .notUnicode =>
    some "Input should be a valid string, unable to parse raw data as a unicode string"
  | .notFlag => some "Input should be a valid boolean"
  | .unclearFlag => some "Input should be a valid boolean, unable to interpret input"
  | .notWhole => some "Input should be a valid integer"
  | .unreadableWhole =>
    some "Input should be a valid integer, unable to parse string as an integer"
  | .hugeWhole => some "Unable to parse input string as an integer, exceeded maximum size"
  | .fractionalWhole =>
    some "Input should be a valid integer, got a number with a fractional part"
  | .infiniteWhole => some "Input should be a finite number"
  | .notPositive => some "Input should be greater than 0"
  | .notList .plain => some "Input should be a valid list"
  | .notList .json => some "Input should be a valid array"
  | .notMap .plain => some "Input should be a valid dictionary"
  | .notMap .json => some "Input should be an object"
  | .notRecord .plain record =>
    some ("Input should be a valid dictionary or instance of " ++ record)
  | .notRecord .json _ => some "Input should be an object"
  | .refused message => some ("Value error, " ++ message)
  | .notJson => none

/-- A trouble at its place, from the outermost step on. -/
structure Problem where
  places : List Place
  trouble : Trouble
deriving DecidableEq, Repr

/-- The problems of a value that should have been a record. -/
structure Rejected where
  record : String
  problems : List Problem
deriving DecidableEq, Repr

end Conversion
end FiniteAutomata
