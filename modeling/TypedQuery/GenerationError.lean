/-
Why no shapes can be made for an operation.
-/
import TypedQuery.Shape

namespace TypedQuery

/-- How a message names a fragment. -/
inductive FragmentLabel
  | inline
  | named (name : String)
deriving DecidableEq, Repr

def FragmentLabel.text : FragmentLabel → String
  | inline => "inline fragment"
  | named n => n

/-- Where a type of the wrong kind was found. -/
inductive TypePosition
  | selectedField (field : String)
  | root (kind : OperationKind)
  | variable (name : String)
  | inputField (type field : String)
deriving DecidableEq, Repr

def TypePosition.text : TypePosition → String
  | selectedField f => "selected field " ++ f
  | root k => k.keyword ++ " root"
  | .variable n => "variable $" ++ n
  | inputField t f => "input field " ++ t ++ "." ++ f

inductive GenerationError
  | unknownType (name : String)
  | unknownField (type field : String)
  | invalidSelectionSet (type : String) (kind : TypeKind)
  | unknownFragment (name : String)
  | incompatibleFragment (label : FragmentLabel) (condition enclosing : String)
  | fragmentCycle (path : List String)
  | fieldConflict (type key first second : String)
  | unexpectedTypeKind (type : String) (kind : TypeKind) (position : TypePosition)
  | missingTypename (type : String)
  | nameCollision (existing conflicting : Shape)
deriving DecidableEq, Repr

namespace GenerationError

def message : GenerationError → String
  | unknownType n => "Unknown type: " ++ n ++ " is not defined in the schema"
  | unknownField t f => "Unknown field: " ++ t ++ " has no field named " ++ f
  | invalidSelectionSet t k =>
    "Invalid selection set: " ++ k.label ++ " type " ++ t ++ " must select at least one field"
  | unknownFragment n => "Unknown fragment: " ++ n
  | incompatibleFragment l c e =>
    "Incompatible fragment: " ++ l.text ++ " on " ++ c ++ " cannot be spread within " ++ e
  | fragmentCycle path => "Fragment cycle: " ++ " -> ".intercalate path
  | fieldConflict t k a b =>
    "Field conflict on " ++ t ++ ": response key " ++ k ++ " selects both " ++ a ++ " and " ++ b
  | unexpectedTypeKind t k p =>
    "Unexpected " ++ k.label ++ " type " ++ t ++ " for " ++ p.text
  | missingTypename t =>
    "Missing __typename: " ++ t ++ " has type-specific selections and must select __typename"
  | nameCollision existing conflicting =>
    "Generated type name collision on " ++ conflicting.name ++ ": " ++ existing.summary ++
      " conflicts with " ++ conflicting.summary

end GenerationError

end TypedQuery
