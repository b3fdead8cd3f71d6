/-
Making shapes. A run threads one registry through all operations; a shape is registered after the
shapes it refers to, and an operation that fails leaves the registry as it was.
-/
import TypedQuery.Split
import TypedQuery.Registry
import TypedQuery.Text.Words

namespace TypedQuery

/-- What a run has done so far. `expanding` holds the input objects whose fields are being
resolved. -/
structure Progress where
  registry : Registry
  expanding : List String
deriving Repr

def Progress.start : Progress := ⟨.empty, []⟩

/-- A step of a run. What it registered before an error stays registered. -/
abbrev Generator := ExceptT GenerationError (StateM Progress)

/-- The declaration of the meta-field `__typename`. -/
def typenameField : FieldDefinition := ⟨"__typename", .nonNull (.named "String"), none⟩

/-- A shape kept under the explicit name `name?`, or else under the first name that admits it. -/
def register (shape : Shape) (name? : Option String) : Generator String := do
  let p ← get
  match name? with
  | none =>
    let (registry, name) := p.registry.registerDeduplicated shape
    set { p with registry := registry }
    return name
  | some name =>
    let registry ← liftExcept (p.registry.register { shape with name := name })
    set { p with registry := registry }
    return name
where
  liftExcept {α : Type} : Except GenerationError α → Generator α
    | .ok a => pure a
    | .error e => throw e

def EnumDefinition.shape (d : EnumDefinition) : Shape where
  name := d.name
  schemaType := d.name
  kind := .enumeration d.values
  description? := d.description?
  properties := []

/-- The one shape of an enum. -/
def enumShape (d : EnumDefinition) : Generator String := register d.shape (some d.name)

namespace Schema

/-- The declaration behind a collected field: of the type itself, or else of the type on which
the field was first selected. -/
def declaration? (s : Schema) (fields : List FieldDefinition) (f : CollectedField) :
    Option FieldDefinition :=
  if f.name = typenameField.name then some typenameField
  else (fields ++ s.fieldsOf f.scope).find? (·.name = f.name)

/-- Resolves the type of a field from its selections. -/
abbrev FieldResolver := FieldDefinition → List Expanded → Generator PropertyType

/-- The property of a key collected on the type `type`, which declares `fields`. -/
def property (s : Schema) (resolve : FieldResolver) (type : String)
    (fields : List FieldDefinition) (f : CollectedField) : Generator Property := do
  match s.declaration? fields f with
  | none => throw (.unknownField type f.name)
  | some declaration =>
    let t ← resolve declaration f.selections
    return {
      name := f.key
      fieldName := f.name
      type := if f.conditional then t.intoNullable else t
      description? := declaration.description? }

/-- The properties that selections on `type` give. -/
def properties (s : Schema) (resolve : FieldResolver) (type : String)
    (fields : List FieldDefinition) (selections : List Expanded) : Generator (List Property) := do
  let collected ← register.liftExcept (Expanded.collect s type selections)
  collected.mapM (s.property resolve type fields)

/-- The shape of an object; without a name of its own it is kept under the object's. -/
def objectShape (s : Schema) (resolve : FieldResolver) (o : ObjectDefinition)
    (selections : List Expanded) (name? : Option String) : Generator String := do
  if selections.isEmpty then throw (.invalidSelectionSet o.name .object)
  let properties ← s.properties resolve o.name o.fields selections
  register ⟨o.name, o.name, .object, o.description?, properties⟩ name?

/-- Selections return `__typename` under its own key, whatever the server leaves out. -/
def returnsTypename (fields : List CollectedField) : Bool :=
  fields.any fun f => f.key = typenameField.name && f.name = typenameField.name && !f.conditional

/-- One variant for each run-time type that selects anything. Of a type that is possible twice,
the branch counts once. -/
def variants (s : Schema) (resolve : FieldResolver) (common : List Expanded) :
    Branches → List String → Generator (List Variant)
  | _, [] => return []
  | branches, typename :: rest => do
    let selections := common ++ branches.get typename
    let branches := branches.remove typename
    if selections.isEmpty then s.variants resolve common branches rest
    else
      match ← register.liftExcept (s.resolve typename) with
      | .object o =>
        let shapeName ← s.objectShape resolve o selections none
        let more ← s.variants resolve common branches rest
        return ⟨typename, shapeName⟩ :: more
      | _ => s.variants resolve common branches rest

/-- The kind of an interface or union shape with these variants. -/
def abstractKind (kind : TypeKind) (variants : List Variant) : ShapeKind :=
  if kind = .union then .union variants else .interface variants

/-- The shape of an interface or a union: the common part gives its properties, and if there are
branches, each run-time type that selects anything is a variant. -/
def abstractShape (s : Schema) (resolve : FieldResolver) (site : TypeDefinition)
    (selections : List Expanded) (name? : Option String) : Generator String := do
  if selections.isEmpty then throw (.invalidSelectionSet site.name site.kind)
  let (common, branches) ← register.liftExcept (Expanded.split s site.name selections)
  let properties ← s.properties resolve site.name site.fields common
  let variants ←
    if branches.isEmpty then pure []
    else
      let collected ← register.liftExcept (Expanded.collect s site.name common)
      if returnsTypename collected then
        s.variants resolve common branches (s.possibleTypes site.name)
      else throw (.missingTypename site.name)
  register ⟨site.name, site.name, abstractKind site.kind variants, site.description?, properties⟩
    name?

/-- The type of a field, where `resolve` serves the fields below it. Scalars and enums ignore
what is selected below them. -/
def fieldTypeOver (s : Schema) (resolve : FieldResolver) : FieldResolver := fun f selections => do
  let base ← match ← register.liftExcept (s.resolve f.type.baseName) with
    | .scalar d => pure (.scalar d.name (s.hostType d.name))
    | .enumeration d => .generated <$> enumShape d
    | .object d => .generated <$> s.objectShape resolve d selections none
    | .interface d => .generated <$> s.abstractShape resolve (.interface d) selections none
    | .union d => .generated <$> s.abstractShape resolve (.union d) selections none
    | .input d => throw (.unexpectedTypeKind d.name .inputObject (.selectedField f.name))
  return .ofTypeRef f.type base

/-- Resolves nothing. -/
def unresolved : FieldResolver := fun f _ => throw (.unknownType f.type.baseName)

/-- The type of a field below which fields stand at most `levels` deep. Below the last level
there is no field left to resolve. -/
def fieldType (s : Schema) : Nat → FieldResolver
  | 0 => s.fieldTypeOver unresolved
  | levels + 1 => s.fieldTypeOver (s.fieldType levels)

/-- The resolver for the fields among `selections`. -/
def resolverFor (s : Schema) (selections : List Expanded) : FieldResolver :=
  s.fieldType (Expanded.levelsOf selections)

/-- Resolves the type of a variable or an input field. An input object that is being expanded or
is registered is referred to by name; another is expanded with all its fields. The names being
expanded are distinct types of the schema, so `depth` levels of them suffice. -/
def inputType (s : Schema) (depth : Nat) (type : TypeRef) (position : TypePosition) :
    Generator PropertyType := do
  let base ← match ← register.liftExcept (s.resolve type.baseName) with
    | .scalar d => pure (.scalar d.name (s.hostType d.name))
    | .enumeration d => .generated <$> enumShape d
    | .input d =>
      let p ← get
      if d.name ∈ p.expanding || p.registry.contains d.name then pure (.generated d.name)
      else
        match depth with
        | 0 => pure (.generated d.name)
        | depth + 1 =>
          modify fun p => { p with expanding := d.name :: p.expanding }
          let leave : Generator Unit :=
            modify fun p => { p with expanding := p.expanding.filter (· ≠ d.name) }
          let properties ← tryCatch
            (d.fields.mapM fun f => do
              let t ← s.inputType depth f.type (.inputField d.name f.name)
              return ⟨f.name, f.name, t, f.description?⟩)
            fun e => do
              leave
              throw e
          leave
          .generated <$> register ⟨d.name, d.name, .inputObject, d.description?, properties⟩
            (some d.name)
    | other => throw (.unexpectedTypeKind other.name other.kind position)
  return .ofTypeRef type base

/-- The properties of an operation's variables. One with a default may be omitted, so it is
nullable whatever its type. -/
def variableProperties (s : Schema) (parameters : List VariableDefinition) :
    Generator (List Property) :=
  parameters.mapM fun v => do
    let t ← s.inputType s.types.length v.type (.variable v.name)
    return ⟨v.name, v.name, if v.hasDefault then t.intoNullable else t, none⟩

end Schema

/-- What is known of an operation whose shapes are made. `source` is the text that a client
sends. -/
structure OperationShape where
  name? : Option String
  kind : OperationKind
  dataType : String
  parameters : List Property
  source : String
deriving DecidableEq, Repr

/-- The name of the shape of an operation's data. -/
def Operation.dataTypeName (op : Operation) (root : String) : String :=
  String.ofList (Text.upperCamel (op.name?.getD root).toList) ++ "Data"

/-- Makes the shapes of an operation, without rolling back. -/
def Schema.operationShapes (s : Schema) (d : Document) (op : Operation) :
    Generator OperationShape := do
  register.liftExcept (d.checkCycles op.selections)
  let rootName := s.rootType op.kind
  match ← register.liftExcept (s.resolve rootName) with
  | .object root =>
    let selections := d.expand op.selections
    let dataType ← s.objectShape (s.resolverFor selections) root selections
      (some (op.dataTypeName rootName))
    let parameters ← s.variableProperties op.parameters
    return ⟨op.name?, op.kind, dataType, parameters, d.operationSource op⟩
  | other => throw (.unexpectedTypeKind rootName other.kind (.root op.kind))

/-- Makes the shapes of an operation. If that fails, the registry is as it was before. -/
def Schema.generateOperation (s : Schema) (d : Document) (op : Operation) :
    Generator OperationShape := do
  let size := (← get).registry.size
  tryCatch (s.operationShapes d op) fun e => do
    modify fun p => { p with registry := p.registry.truncate size }
    throw e

/-- The shapes of a whole document. -/
structure Generation where
  operations : List OperationShape
  shapes : List Shape
deriving DecidableEq, Repr

/-- Makes the shapes of every operation in order; the first failure ends the run. -/
def Schema.generate (s : Schema) (d : Document) : Except GenerationError Generation :=
  let (result, progress) := (d.operations.mapM (s.generateOperation d)).run .start
  result.map fun operations => ⟨operations, progress.registry.shapes⟩

end TypedQuery
