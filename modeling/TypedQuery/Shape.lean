/-
Shapes: what the host program knows of one level of a response, of an enum or of an input
object. A shape refers to other shapes by name.
-/
import TypedQuery.Schema

namespace TypedQuery

/-- The innermost type of a property: a scalar with its host type, or another shape. -/
inductive BaseType
  | scalar (name host : String)
  | generated (name : String)
deriving DecidableEq, Repr

def BaseType.name : BaseType → String
  | scalar n _ => n
  | generated n => n

inductive PropertyType
  | named (base : BaseType) (nullable : Bool)
  | list (element : PropertyType) (nullable : Bool)
deriving DecidableEq, Repr

namespace PropertyType

def isNullable : PropertyType → Bool
  | named _ nullable => nullable
  | list _ nullable => nullable

def isList : PropertyType → Bool
  | named _ _ => false
  | list _ _ => true

/-- The innermost type, under any number of list layers. -/
def base : PropertyType → BaseType
  | named b _ => b
  | list e _ => e.base

/-- The type with its outermost layer nullable. -/
def intoNullable : PropertyType → PropertyType
  | named b _ => named b true
  | list e _ => list e true

/-- The mark of a layer that is not nullable. -/
def mark (nullable : Bool) : String := if nullable then "" else "!"

/-- The written form, as for a type reference: `[String!]!`. -/
def render : PropertyType → String
  | named b nullable => b.name ++ mark nullable
  | list e nullable => "[" ++ e.render ++ "]" ++ mark nullable

/-- The layers of a type reference around `base`. A layer is nullable unless it is marked. -/
def ofLayers (base : BaseType) (nullable : Bool) : TypeRef → PropertyType
  | .named _ => named base nullable
  | .nonNull t => ofLayers base false t
  | .list e => list (ofLayers base true e) nullable

/-- The property type of a field declared with `type`, whose base is `base`. -/
def ofTypeRef (type : TypeRef) (base : BaseType) : PropertyType := ofLayers base true type

end PropertyType

/-- `name` is the response key and `fieldName` the schema field it was selected from. -/
structure Property where
  name : String
  fieldName : String
  type : PropertyType
  description? : Option String
deriving DecidableEq, Repr

/-- A run-time type of an interface or union shape, and the shape of its values. -/
structure Variant where
  typename : String
  shapeName : String
deriving DecidableEq, Repr

inductive ShapeKind
  | object
  | enumeration (values : List EnumValue)
  | interface (variants : List Variant)
  | union (variants : List Variant)
  | inputObject
deriving DecidableEq, Repr

structure Shape where
  name : String
  schemaType : String
  kind : ShapeKind
  description? : Option String
  properties : List Property
deriving DecidableEq, Repr

namespace Shape

def variants (s : Shape) : List Variant :=
  match s.kind with
  | .interface vs => vs
  | .union vs => vs
  | _ => []

/-- The first property of that name. -/
def property? (s : Shape) (name : String) : Option Property :=
  s.properties.find? (·.name = name)

/-- A name with its parts between braces. -/
def braced (name parts : String) : String := name ++ " \x7b " ++ parts ++ " \x7d"

/-- The shape on one line, for messages. -/
def summary (s : Shape) : String :=
  match s.kind with
  | .enumeration values => braced s.name (" | ".intercalate (values.map (·.name)))
  | _ =>
    let body := braced s.name
      (", ".intercalate (s.properties.map fun p => p.name ++ ": " ++ p.type.render))
    if s.variants.isEmpty then body
    else body ++ " as " ++ " | ".intercalate (s.variants.map (·.shapeName))

end Shape

end TypedQuery
