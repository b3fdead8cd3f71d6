/-
Type system definitions as they are written. Reading is lenient: whatever is missing has a plain
default, and a definition ends at the first token that does not belong to it.
-/
import TypedQuery.Schema
import TypedQuery.Source.Value

namespace TypedQuery.Reader

/-- A description, if a string is next. An empty one counts as none. -/
def description? : Reader (Option String) := do
  return (← string?).filter (· ≠ "")

/-- Constant directives; nothing of them is kept. -/
def constantDirectives : Reader Unit := do
  let _ ← directives .constant nestingLimit

/-- The type after a colon, then `tail`. Without a colon, or without a type after it, the type is
the fallback and `tail` is not read. -/
def typeAnnotation (tail : Reader Unit) : Reader TypeRef := do
  if ← accept .colon then
    if (← peek).any startsType then
      let t ← typeRef nestingLimit
      tail
      return t
    else missingType
  else missingType

/-- An argument definition or a field of an input object. -/
def inputField : Reader FieldDefinition := do
  let description ← description?
  let n ← name
  let t ← typeAnnotation do
    let _ ← defaultValue? nestingLimit
    constantDirectives
  return ⟨n, t, description⟩

/-- Items between braces, each begun by a name or a string. -/
def inBraces {α : Type} (item : Reader α) : Reader (List α) := do
  skip
  let items ← many1 Token.isNameOrString item
  expect .closeBrace
  return items

/-- Items between braces, if a brace is next. -/
def inBraces? {α : Type} (item : Reader α) : Reader (List α) := do
  if (← peek) = some .openBrace then inBraces item else return []

/-- Argument definitions, if a parenthesis is next. -/
def argumentDefinitions? : Reader Unit := do
  if ← accept .openParen then
    let _ ← many1 Token.isNameOrString inputField
    expect .closeParen

/-- A field of an object or an interface. -/
def fieldDefinition : Reader FieldDefinition := do
  let description ← description?
  let n ← name
  argumentDefinitions?
  let t ← typeAnnotation constantDirectives
  return ⟨n, t, description⟩

/-- These names are values of other kinds. -/
def isReservedValue (n : String) : Bool := n = "true" || n = "false" || n = "null"

def enumValue : Reader EnumValue := do
  let description ← description?
  let n ← name
  if isReservedValue n then fault
  constantDirectives
  return ⟨n, description⟩

/-- The names of a separated list; where a name is missing there is none. -/
def nameList (separator : Token) : Reader (List String) := do
  let names ← separated separator do
    let n ← name?
    if n.isNone then fault
    return n
  return names.filterMap id

/-- The interfaces after the word `implements`, if it is next. -/
def implements? : Reader (List String) := do
  if ← acceptWord "implements" then nameList .ampersand else return []

/-- The members after an equals sign, if it is next. -/
def unionMembers? : Reader (List String) := do
  if ← accept .equals then nameList .pipe else return []

/-- A root of a schema definition. An unknown kind of operation is a fault and counts as query;
a root without a type is left out. -/
def rootType : Reader (Option (OperationKind × String)) := do
  let word ← name
  let kind := OperationKind.ofKeyword? word
  if kind.isNone then fault
  if ← accept .colon then
    match ← name? with
    | some n => return some (kind.getD .query, n)
    | none =>
      fault
      return none
  else
    fault
    return none

/-- The roots between braces, if a brace is next. -/
def rootTypes? : Reader (List (OperationKind × String)) := do
  if ← accept .openBrace then
    let roots ← many1 Token.isName rootType
    expect .closeBrace
    return roots.filterMap id
  else return []

/-- The type definition whose keyword was taken, under its description. -/
def typeDefinition (kind : TypeKind) (description : Option String) : Reader TypeDefinition := do
  let n ← name
  match kind with
  | .scalar =>
    constantDirectives
    return .scalar ⟨n, description⟩
  | .enumeration =>
    constantDirectives
    return .enumeration ⟨n, description, ← inBraces? enumValue⟩
  | .object =>
    let interfaces ← implements?
    constantDirectives
    return .object ⟨n, description, interfaces, ← inBraces? fieldDefinition⟩
  | .interface =>
    let interfaces ← implements?
    constantDirectives
    return .interface ⟨n, description, interfaces, ← inBraces? fieldDefinition⟩
  | .union =>
    constantDirectives
    return .union ⟨n, description, ← unionMembers?⟩
  | .inputObject =>
    constantDirectives
    return .input ⟨n, description, ← inBraces? inputField⟩

/-- The kind of type that a keyword begins. -/
def typeKeyword? : String → Option TypeKind
  | "scalar" => some .scalar
  | "enum" => some .enumeration
  | "type" => some .object
  | "interface" => some .interface
  | "union" => some .union
  | "input" => some .inputObject
  | _ => none

/-- The schema definition whose keyword was taken. -/
def schemaDefinition : Reader (List (OperationKind × String)) := do
  constantDirectives
  unless (← peek) = some .openBrace do fault
  rootTypes?

/-- Where a directive may stand. -/
def directiveLocations : List String :=
  ["QUERY", "MUTATION", "SUBSCRIPTION", "FIELD", "FRAGMENT_DEFINITION", "FRAGMENT_SPREAD",
   "INLINE_FRAGMENT", "VARIABLE_DEFINITION", "SCHEMA", "SCALAR", "OBJECT", "FIELD_DEFINITION",
   "ARGUMENT_DEFINITION", "INTERFACE", "UNION", "ENUM", "ENUM_VALUE", "INPUT_OBJECT",
   "INPUT_FIELD_DEFINITION"]

def directiveLocation : Reader Unit := do
  match ← peek with
  | some (.name n) => if n ∈ directiveLocations then skip else fault
  | _ => fault

/-- The directive definition whose keyword was taken. -/
def directiveDefinition : Reader Unit := do
  expect .atSign
  let _ ← name
  argumentDefinitions?
  let _ ← acceptWord "repeatable"
  unless ← acceptWord "on" do fault
  let _ ← separated .pipe directiveLocation

/-- The type extension whose keywords were taken; it has to extend something. -/
def typeExtension (kind : TypeKind) : Reader Unit := fun ts =>
  let x := typeDefinition kind none ts
  let bare := name ts
  ⟨(), x.clean && x.rest.length ≠ bare.rest.length, x.rest⟩

/-- The schema extension whose keywords were taken; it has to extend something. -/
def schemaExtension : Reader Unit := do
  let names ← directives .constant nestingLimit
  let roots ← rootTypes?
  if names.isEmpty && roots.isEmpty then fault

end TypedQuery.Reader
