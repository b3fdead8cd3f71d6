/-
Executable documents: operations and fragments with their selection sets. Of arguments and
directives a selection keeps only whether the server may leave it out.
-/
import TypedQuery.TypeRef

namespace TypedQuery

inductive OperationKind
  | query
  | mutation
  | subscription
deriving DecidableEq, Repr

namespace OperationKind

def keyword : OperationKind → String
  | query => "query"
  | mutation => "mutation"
  | subscription => "subscription"

def ofKeyword? : String → Option OperationKind
  | "query" => some query
  | "mutation" => some mutation
  | "subscription" => some subscription
  | _ => none

end OperationKind

/-- A selection. `conditional` says that it carries `@skip` or `@include`; a field with an empty
list of selections is one without a selection set. -/
inductive Selection
  | field (alias? : Option String) (name : String) (conditional : Bool)
      (selections : List Selection)
  | spread (fragment : String) (conditional : Bool)
  | inline (condition? : Option String) (conditional : Bool) (selections : List Selection)
deriving Repr

namespace Selection

mutual

/-- The names of the fragments spread in a selection at any depth, in the order of the text. -/
def spreads : Selection → List String
  | field _ _ _ sub => spreadsOf sub
  | spread name _ => [name]
  | inline _ _ sub => spreadsOf sub

/-- The names of the fragments spread in selections at any depth, in the order of the text. -/
def spreadsOf : List Selection → List String
  | [] => []
  | s :: rest => s.spreads ++ spreadsOf rest

end

end Selection

structure VariableDefinition where
  name : String
  type : TypeRef
  hasDefault : Bool
deriving DecidableEq, Repr

/-- `source` is the operation's own text, without the fragments it uses. -/
structure Operation where
  name? : Option String
  kind : OperationKind
  parameters : List VariableDefinition
  selections : List Selection
  source : String
deriving Repr

structure Fragment where
  name : String
  condition : String
  selections : List Selection
  source : String
deriving Repr

/-- Operations and fragments in the order of the text; no two fragments have one name. -/
structure Document where
  operations : List Operation
  fragments : List Fragment
deriving Repr

namespace Document

/-- The first operation of that name. -/
def operation? (d : Document) (name : String) : Option Operation :=
  d.operations.find? (·.name? = some name)

def fragment? (d : Document) (name : String) : Option Fragment :=
  d.fragments.find? (·.name = name)

/-- The names spread in the fragment of that name; none if it is not defined. -/
def spreadsIn (d : Document) (name : String) : List String :=
  match d.fragment? name with
  | some f => Selection.spreadsOf f.selections
  | none => []

end Document

end TypedQuery
