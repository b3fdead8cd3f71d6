/-
Operations and fragments as they are written.
-/
import TypedQuery.Document
import TypedQuery.Source.Value

namespace TypedQuery.Reader

/-- Directives that let the server leave a selection out. -/
def isConditional (directives : List String) : Bool :=
  directives.any fun d => d = "skip" || d = "include"

/-- Directives of a selection; says whether one of them makes it conditional. -/
def conditionality (depth : Nat) : Reader Bool := do
  return isConditional (← directives .variable depth)

/-- A field; `nested` reads selection sets inside it. -/
def field (nested : Reader (List Selection)) (depth : Nat) : Reader Selection := do
  let first ← name
  let second? ← if ← accept .colon then pure (some (← name)) else pure none
  arguments? .variable depth
  let conditional ← conditionality depth
  let selections ← if (← peek) = some .openBrace then nested else pure []
  match second? with
  | some n => return .field (some first) n conditional selections
  | none => return .field none first conditional selections

/-- A fragment spread or an inline fragment, at its dots. -/
def fragmentSelection (nested : Reader (List Selection)) (depth : Nat) : Reader Selection := do
  skip
  match ← peek with
  | some (.name n) =>
    if n = "on" then
      skip
      let condition ← name
      let conditional ← conditionality depth
      return .inline (some condition) conditional (← nested)
    else
      skip
      return .spread n (← conditionality depth)
  | _ =>
    let conditional ← conditionality depth
    return .inline none conditional (← nested)

def startsSelection (t : Token) : Bool := t.isName || t = .spread

def selection (nested : Reader (List Selection)) (depth : Nat) : Reader Selection := do
  if (← peek) = some .spread then fragmentSelection nested depth else field nested depth

/-- A selection set with at most `depth` selection sets inside each other. -/
def selectionSet : Nat → Reader (List Selection)
  | 0 => do
    fault
    return []
  | depth + 1 => do
    if ← accept .openBrace then
      let selections ← many1 startsSelection (selection (selectionSet depth) depth)
      expect .closeBrace
      return selections
    else
      fault
      return []

def variableDefinition : Reader VariableDefinition := do
  expect .dollar
  let n ← name
  if ← accept .colon then
    if (← peek).any startsType then
      let t ← typeRef nestingLimit
      let hasDefault ← defaultValue? nestingLimit
      let _ ← directives .constant nestingLimit
      return ⟨n, t, hasDefault⟩
    else return ⟨n, ← missingType, false⟩
  else return ⟨n, ← missingType, false⟩

/-- Variable definitions, if a parenthesis is next. -/
def variableDefinitions? : Reader (List VariableDefinition) := do
  if ← accept .openParen then
    let parameters ← many1 (· = .dollar) variableDefinition
    expect .closeParen
    return parameters
  else return []

/-- What follows the keyword of an operation. -/
def operationTail (kind : OperationKind) : Reader Operation := do
  let n ← name?
  let parameters ← variableDefinitions?
  let _ ← directives .variable nestingLimit
  return ⟨n, kind, parameters, ← selectionSet nestingLimit, ""⟩

/-- An operation at its keyword, or at its selection set if that is all there is. -/
def operationDefinition (kind? : Option OperationKind) : Reader Operation := do
  let (op, source) ← withSource do
    match kind? with
    | some kind =>
      skip
      operationTail kind
    | none => return ⟨none, .query, [], ← selectionSet nestingLimit, ""⟩
  return { op with source := String.ofList source }

/-- What follows the keyword of a fragment. -/
def fragmentTail : Reader Fragment := do
  let n ← name
  if n = "on" then fault
  unless ← acceptWord "on" do fault
  let condition ← name
  let _ ← directives .variable nestingLimit
  return ⟨n, condition, ← selectionSet nestingLimit, ""⟩

/-- A fragment at its keyword. -/
def fragmentDefinition : Reader Fragment := do
  let (fragment, source) ← withSource do
    skip
    fragmentTail
  return { fragment with source := String.ofList source }

end TypedQuery.Reader
