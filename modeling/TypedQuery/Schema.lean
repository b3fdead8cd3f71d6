/-
Schemas: named types, the root type of each kind of operation, and the host type of each scalar.
-/
import TypedQuery.TypeRef
import TypedQuery.Document

namespace TypedQuery

inductive TypeKind
  | scalar
  | enumeration
  | object
  | inputObject
  | interface
  | union
deriving DecidableEq, Repr

/-- The kind in words, as messages name it. -/
def TypeKind.label : TypeKind → String
  | scalar => "scalar"
  | enumeration => "enum"
  | object => "object"
  | inputObject => "input object"
  | interface => "interface"
  | union => "union"

/-- A field of an object, an interface or an input object. -/
structure FieldDefinition where
  name : String
  type : TypeRef
  description? : Option String
deriving DecidableEq, Repr

structure EnumValue where
  name : String
  description? : Option String
deriving DecidableEq, Repr

structure ScalarDefinition where
  name : String
  description? : Option String
deriving DecidableEq, Repr

structure EnumDefinition where
  name : String
  description? : Option String
  values : List EnumValue
deriving DecidableEq, Repr

structure ObjectDefinition where
  name : String
  description? : Option String
  interfaces : List String
  fields : List FieldDefinition
deriving DecidableEq, Repr

structure InterfaceDefinition where
  name : String
  description? : Option String
  interfaces : List String
  fields : List FieldDefinition
deriving DecidableEq, Repr

structure UnionDefinition where
  name : String
  description? : Option String
  members : List String
deriving DecidableEq, Repr

structure InputDefinition where
  name : String
  description? : Option String
  fields : List FieldDefinition
deriving DecidableEq, Repr

inductive TypeDefinition
  | scalar (d : ScalarDefinition)
  | enumeration (d : EnumDefinition)
  | object (d : ObjectDefinition)
  | interface (d : InterfaceDefinition)
  | union (d : UnionDefinition)
  | input (d : InputDefinition)
deriving DecidableEq, Repr

namespace TypeDefinition

def name : TypeDefinition → String
  | scalar d => d.name
  | enumeration d => d.name
  | object d => d.name
  | interface d => d.name
  | union d => d.name
  | input d => d.name

def description? : TypeDefinition → Option String
  | scalar d => d.description?
  | enumeration d => d.description?
  | object d => d.description?
  | interface d => d.description?
  | union d => d.description?
  | input d => d.description?

def kind : TypeDefinition → TypeKind
  | scalar _ => .scalar
  | enumeration _ => .enumeration
  | object _ => .object
  | interface _ => .interface
  | union _ => .union
  | input _ => .inputObject

/-- The declared fields; scalars, enums and unions declare none. -/
def fields : TypeDefinition → List FieldDefinition
  | object d => d.fields
  | interface d => d.fields
  | input d => d.fields
  | scalar _ | enumeration _ | union _ => []

/-- Objects, interfaces and unions are selected from field by field. -/
def isComposite : TypeDefinition → Bool
  | object _ | interface _ | union _ => true
  | scalar _ | enumeration _ | input _ => false

end TypeDefinition

/-- The name of the root type of each kind of operation. -/
structure RootTypes where
  query : String := "Query"
  mutation : String := "Mutation"
  subscription : String := "Subscription"
deriving DecidableEq, Repr

namespace RootTypes

def get (r : RootTypes) : OperationKind → String
  | .query => r.query
  | .mutation => r.mutation
  | .subscription => r.subscription

def set (r : RootTypes) (kind : OperationKind) (name : String) : RootTypes :=
  match kind with
  | .query => { r with query := name }
  | .mutation => { r with mutation := name }
  | .subscription => { r with subscription := name }

end RootTypes

/-- Host types by scalar name; the last entry of a name counts. -/
structure ScalarMappings where
  entries : List (String × String)
deriving DecidableEq, Repr

namespace ScalarMappings

/-- The built-in scalars and their host types. -/
def builtin : List (String × String) :=
  [("String", "String"), ("Int", "i32"), ("Float", "f64"), ("Boolean", "bool"), ("ID", "String")]

/-- The host type of a scalar without an entry. -/
def fallback : String := "serde_json::Value"

def default : ScalarMappings := ⟨builtin⟩

def insert (m : ScalarMappings) (scalar host : String) : ScalarMappings :=
  ⟨m.entries ++ [(scalar, host)]⟩

def insertAll (m : ScalarMappings) (entries : List (String × String)) : ScalarMappings :=
  ⟨m.entries ++ entries⟩

/-- The host type of a scalar. -/
def host (m : ScalarMappings) (scalar : String) : String :=
  ((m.entries.reverse.find? (·.1 = scalar)).map (·.2)).getD fallback

end ScalarMappings

/-- Types are in order of first definition, with distinct names. -/
structure Schema where
  types : List TypeDefinition
  roots : RootTypes
  scalars : ScalarMappings
deriving DecidableEq, Repr

namespace Schema

/-- The built-in scalars, and nothing else. -/
def builtin : Schema where
  types := ScalarMappings.builtin.map fun (name, _) => .scalar ⟨name, none⟩
  roots := {}
  scalars := .default

def find? (s : Schema) (name : String) : Option TypeDefinition :=
  s.types.find? (·.name = name)

/-- Adds a type. One of the same name is replaced where it stands. -/
def define (s : Schema) (t : TypeDefinition) : Schema :=
  if s.types.any (·.name = t.name) then
    { s with types := s.types.map fun u => if u.name = t.name then t else u }
  else { s with types := s.types ++ [t] }

/-- The declared fields of a type; an unknown type has none. -/
def fieldsOf (s : Schema) (name : String) : List FieldDefinition :=
  ((s.find? name).map TypeDefinition.fields).getD []

/-- The object in `t` if it implements the interface `name`. -/
def implementer? (name : String) : TypeDefinition → Option String
  | .object o => if name ∈ o.interfaces then some o.name else none
  | _ => none

/-- The object types that a value of the named type can have at run time: the object itself, the
objects that implement an interface in schema order, the members of a union as written. -/
def possibleTypes (s : Schema) (name : String) : List String :=
  match s.find? name with
  | some (.object o) => [o.name]
  | some (.interface _) => s.types.filterMap (implementer? name)
  | some (.union u) => u.members
  | _ => []

def rootType (s : Schema) (kind : OperationKind) : String := s.roots.get kind

def hostType (s : Schema) (scalar : String) : String := s.scalars.host scalar

/-- Two types have a run-time type in common. -/
def overlap (s : Schema) (a b : String) : Bool :=
  (s.possibleTypes a).any (· ∈ s.possibleTypes b)

/-- A fragment on `condition` applies to every run-time type of `site`. -/
def covers (s : Schema) (condition site : String) : Bool :=
  condition = site ||
    (!(s.possibleTypes site).isEmpty &&
      (s.possibleTypes site).all (· ∈ s.possibleTypes condition))

end Schema

end TypedQuery
