/-
The items of an emitted file: structures, enumerations, tagged enumerations and the constants
that hold the text of operations. An item is made from a shape or an operation (`items`), and its
text is written elsewhere.
-/
import TypedQuery.Emission.HostType
import TypedQuery.Emission.DocComment
import TypedQuery.Generation

namespace TypedQuery.Emission

/-- Why no file can be written. -/
inductive EmissionError
  | invalidHostType (scalar host : String)
  | notAnIdentifier (name : String)
deriving DecidableEq, Repr

def EmissionError.message : EmissionError → String
  | invalidHostType scalar host => "Invalid host type for scalar " ++ scalar ++ ": " ++ host
  | notAnIdentifier name => "Not an identifier: " ++ name

/-- The identifier for a name. -/
def identifier (name : String) : Except EmissionError String :=
  match identifier? name with
  | some i => .ok i
  | none => .error (.notAnIdentifier name)

/-- The type of an emitted field. -/
inductive FieldType
  | host (type : Layout)
  | item (name : String)
  | boxed (inner : FieldType)
  | list (element : FieldType)
  | option (inner : FieldType)
deriving Repr

/-- What a structure is for: response data is read, input objects and variables are written. -/
inductive Role
  | output
  | input
  | parameters
deriving DecidableEq, Repr

/-- A field of a structure. `rename?` is its name on the wire if that is not the identifier;
`skipped` says that it is left out when it has no value, and `defaulted` that it may be missing
from what is read. -/
structure Field where
  docs : List String
  rename? : Option String
  skipped : Bool
  defaulted : Bool
  identifier : String
  type : FieldType
deriving Repr

/-- A variant of an enumeration, with its name on the wire and the item it holds. -/
structure EnumVariant where
  docs : List String
  wire : String
  identifier : String
  content? : Option String
deriving DecidableEq, Repr

inductive Item
  | struct (role : Role) (docs : List String) (name : String) (fields : List Field)
  | enumeration (tagged : Bool) (docs : List String) (name : String)
      (variants : List EnumVariant) (fallback : String)
  | constant (doc : String) (name : String) (value : String)
deriving Repr

/-- The kind of each shape by name; of two shapes with one name the later counts. -/
abbrev Kinds := List Shape

def Kinds.isInput (kinds : Kinds) (name : String) : Bool :=
  (kinds.reverse.find? (·.name = name)).any (·.kind = .inputObject)

/-- The emitted type for a base. An input object that is not behind a list goes into a box if
`box`, so that one which refers to itself has a finite size. -/
def baseType (kinds : Kinds) (box : Bool) : BaseType → Except EmissionError FieldType
  | .scalar name host =>
    match HostType.read? host with
    | some type => .ok (.host type)
    | none => .error (.invalidHostType name host)
  | .generated name => do
    let i ← identifier (typeName name)
    .ok (if box && kinds.isInput name then .boxed (.item i) else .item i)

def optional (nullable : Bool) (t : FieldType) : FieldType := if nullable then .option t else t

/-- The emitted type for a property type. -/
def fieldType (kinds : Kinds) (box : Bool) : PropertyType → Except EmissionError FieldType
  | .named b nullable => do .ok (optional nullable (← baseType kinds box b))
  | .list e nullable => do .ok (optional nullable (.list (← fieldType kinds false e)))

/-- `Name`, `Name_2`, `Name_3`, … -/
def fieldCandidate (base : String) : Nat → String
  | 0 => base
  | n + 1 => base ++ "_" ++ toString (n + 2)

/-- The first candidate that is not taken. One of the first `taken.length + 1` is free. -/
def freshName (taken : List String) (base : String) : String :=
  let candidates := (List.range (taken.length + 1)).map (fieldCandidate base)
  (candidates.find? (· ∉ taken)).getD base

/-- The field for a property, under the name `name`. -/
def field (kinds : Kinds) (role : Role) (name : String) (p : Property) :
    Except EmissionError Field := do
  let i ← identifier name
  let type ← fieldType kinds (role = .input) p.type
  .ok {
    docs := docLines p.description?
    rename? := if name = p.name then none else some p.name
    skipped := role ≠ .output && p.type.isNullable
    defaulted := role = .output && p.fieldName = "__typename"
    identifier := i
    type := type }

/-- The fields for properties, under names that differ from each other and from `taken`. -/
def fields (kinds : Kinds) (role : Role) (taken : List String) :
    List Property → Except EmissionError (List Field)
  | [] => .ok []
  | p :: rest => do
    let name := freshName taken (fieldName p.name)
    let f ← field kinds role name p
    let more ← fields kinds role (taken ++ [name]) rest
    .ok (f :: more)

/-- The structure for a shape with properties. -/
def structItem (kinds : Kinds) (role : Role) (s : Shape) : Except EmissionError Item := do
  let name ← identifier (typeName s.name)
  let fs ← fields kinds role [] s.properties
  .ok (.struct role (docLines s.description?) name fs)

/-- A name for the variant that stands for all other values. -/
def fallbackName (variants : List String) : String :=
  if "Unknown" ∈ variants then "UnknownValue" else "Unknown"

/-- The enumeration for an enum. -/
def enumItem (s : Shape) (values : List EnumValue) : Except EmissionError Item := do
  let name ← identifier (typeName s.name)
  let names := values.map fun v => typeName v.name
  let fallback ← identifier (fallbackName names)
  let variants ← values.mapM fun v => do
    let i ← identifier (typeName v.name)
    .ok (⟨docLines v.description?, v.name, i, none⟩ : EnumVariant)
  .ok (.enumeration false (docLines s.description?) name variants fallback)

/-- The enumeration for an interface or union shape, told apart by `__typename`. -/
def taggedItem (s : Shape) : Except EmissionError Item := do
  let name ← identifier (typeName s.name)
  let names := s.variants.map fun v => typeName v.typename
  let fallback ← identifier (fallbackName names)
  let variants ← s.variants.mapM fun v => do
    let i ← identifier (typeName v.typename)
    let content ← identifier (typeName v.shapeName)
    .ok (⟨[], v.typename, i, some content⟩ : EnumVariant)
  .ok (.enumeration true (docLines s.description?) name variants fallback)

/-- The item for a shape. -/
def shapeItem (kinds : Kinds) (s : Shape) : Except EmissionError Item :=
  match s.kind with
  | .enumeration values => enumItem s values
  | .inputObject => structItem kinds .input s
  | _ => if s.variants.isEmpty then structItem kinds .output s else taggedItem s

/-- A data type's name without its suffix. -/
def operationStem (dataType : String) : String :=
  match dataType.toList.reverse with
  | 'a' :: 't' :: 'a' :: 'D' :: rest => String.ofList rest.reverse
  | _ => dataType

/-- The last part of a constant's name. -/
def kindSuffix : OperationKind → String
  | .query => "QUERY"
  | .mutation => "MUTATION"
  | .subscription => "SUBSCRIPTION"

/-- The items for an operation: the constant with its text, and a structure for its variables if
it has any. -/
def operationItems (kinds : Kinds) (op : OperationShape) : Except EmissionError (List Item) := do
  let stem := operationStem op.dataType
  let name ← identifier (constantStem stem ++ "_" ++ kindSuffix op.kind)
  let doc := " `" ++ stem ++ "` " ++ op.kind.keyword ++ ", returning [`" ++
    typeName op.dataType ++ "`]."
  let constant := Item.constant doc name op.source
  if op.parameters.isEmpty then .ok [constant]
  else
    let structName ← identifier (typeName stem ++ "Variables")
    let fs ← fields kinds .parameters [] op.parameters
    .ok [constant, .struct .parameters [] structName fs]

/-- The items of the file for a generation: its shapes, then its operations. -/
def items (g : Generation) : Except EmissionError (List Item) := do
  let types ← g.shapes.mapM (shapeItem g.shapes)
  let operations ← g.operations.mapM (operationItems g.shapes)
  .ok (types ++ operations.flatten)

end TypedQuery.Emission
