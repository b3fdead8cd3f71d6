/-
Shapes and operations as JSON, with members in a fixed order. A missing description is left out;
a missing operation name is null.
-/
import TypedQuery.Generation
import TypedQuery.Json

namespace TypedQuery

/-- The member of an optional description. -/
def descriptionMember (description? : Option String) : List (String × Json) :=
  match description? with
  | some d => [("description", .string d)]
  | none => []

def BaseType.toJson : BaseType → Json
  | scalar name host =>
    .object [("kind", .string "scalar"), ("name", .string name), ("host", .string host)]
  | generated name => .object [("kind", .string "generated"), ("name", .string name)]

def PropertyType.toJson : PropertyType → Json
  | named b nullable =>
    .object [("kind", .string "named"), ("base", b.toJson), ("nullable", .bool nullable)]
  | list e nullable =>
    .object [("kind", .string "list"), ("element", e.toJson), ("nullable", .bool nullable)]

def Property.toJson (p : Property) : Json :=
  .object ([("name", .string p.name), ("field_name", .string p.fieldName),
    ("type", p.type.toJson)] ++ descriptionMember p.description?)

def EnumValue.toJson (v : EnumValue) : Json :=
  .object (("name", .string v.name) :: descriptionMember v.description?)

def Variant.toJson (v : Variant) : Json :=
  .object [("typename", .string v.typename), ("type_name", .string v.shapeName)]

def ShapeKind.toJson : ShapeKind → Json
  | object => .string "object"
  | inputObject => .string "input_object"
  | enumeration values =>
    .object [("enum", .object [("values", .array (values.map EnumValue.toJson))])]
  | interface vs => .object [("interface", .object [("variants", .array (vs.map Variant.toJson))])]
  | union vs => .object [("union", .object [("variants", .array (vs.map Variant.toJson))])]

def Shape.toJson (s : Shape) : Json :=
  .object ([("name", .string s.name), ("schema_type", .string s.schemaType),
    ("kind", s.kind.toJson)] ++ descriptionMember s.description? ++
    [("properties", .array (s.properties.map Property.toJson))])

def OperationShape.toJson (op : OperationShape) : Json :=
  .object [("name", .ofString? op.name?), ("kind", .string op.kind.keyword),
    ("data_type", .string op.dataType), ("variables", .array (op.parameters.map Property.toJson)),
    ("source", .string op.source)]

def Generation.toJson (g : Generation) : Json :=
  .object [("operations", .array (g.operations.map OperationShape.toJson)),
    ("types", .array (g.shapes.map Shape.toJson))]

end TypedQuery
