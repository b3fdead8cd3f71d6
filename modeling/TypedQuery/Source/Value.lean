/-
Types, values, arguments and directives as they are written. Of values and arguments nothing is
kept: what a query sends does not change the shape of the answer.
-/
import TypedQuery.Source.Reader
import TypedQuery.TypeRef

namespace TypedQuery.Reader

/-- How deep selection sets, and brackets within them, may nest. -/
def nestingLimit : Nat := 499

/-- The type of what has none that can be read. -/
def fallbackType : TypeRef := .named "String"

/-- A fault that stands for a type. -/
def missingType : Reader TypeRef := do
  fault
  return fallbackType

/-- The non-null mark, if it is next. -/
def nonNullMark? (t : TypeRef) : Reader TypeRef := do
  if ← accept .bang then return .nonNull t else return t

/-- A type reference whose list elements `element` reads. A token that begins no type is taken
all the same, as the fallback type. -/
def typeRefOver (element : Reader TypeRef) : Reader TypeRef := do
  match ← peek with
  | some (.name n) =>
    skip
    nonNullMark? (.named n)
  | some .openBracket =>
    skip
    let e ← element
    expect .closeBracket
    nonNullMark? (.list e)
  | _ =>
    drop
    return fallbackType

/-- A type reference with at most so many list layers. -/
def typeRef : Nat → Reader TypeRef
  | 0 => typeRefOver missingType
  | depth + 1 => typeRefOver (typeRef depth)

def startsType (t : Token) : Bool := t.isName || t = .openBracket

/-- Whether a value may mention variables. -/
inductive Constancy
  | constant
  | variable
deriving DecidableEq, Repr

/-- A field of an object value; `value` reads what follows the colon. -/
def objectField (value : Reader Unit) : Reader Unit := do
  let _ ← name
  if ← accept .colon then value else fault

/-- A value whose parts `nested` reads. Inside a list or an object (`inside`), a token that
begins no value is taken all the same. -/
def valueOver (constancy : Constancy) (inside : Bool) (nested : Reader Unit) : Reader Unit := do
  match ← peek with
  | some .dollar =>
    if constancy = .constant then fault
    skip
    let _ ← name
  | some .number | some (.string _) | some (.name _) => skip
  | some .openBracket =>
    skip
    let _ ← many (· ≠ .closeBracket) nested
    expect .closeBracket
  | some .openBrace =>
    skip
    let _ ← many Token.isName (objectField nested)
    expect .closeBrace
  | _ => if inside then drop else fault

/-- A value with at most so many layers of lists and objects. -/
def value (constancy : Constancy) (inside : Bool) : Nat → Reader Unit
  | 0 => valueOver constancy inside fault
  | depth + 1 => valueOver constancy inside (value constancy true depth)

/-- An argument. Its value may be missing together with the colon. -/
def argument (constancy : Constancy) (depth : Nat) : Reader Unit := do
  let _ ← name
  if ← accept .colon then value constancy false depth

/-- Arguments in parentheses. -/
def arguments (constancy : Constancy) (depth : Nat) : Reader Unit := do
  expect .openParen
  let _ ← many1 Token.isName (argument constancy depth)
  expect .closeParen

/-- Arguments, if the next token opens them. -/
def arguments? (constancy : Constancy) (depth : Nat) : Reader Unit := do
  if (← peek) = some .openParen then arguments constancy depth

/-- A directive; its name is kept. -/
def directive (constancy : Constancy) (depth : Nat) : Reader String := do
  expect .atSign
  let n ← name
  arguments? constancy depth
  return n

/-- The names of the directives that come next. -/
def directives (constancy : Constancy) (depth : Nat) : Reader (List String) :=
  many (· = .atSign) (directive constancy depth)

/-- A default value, if an equals sign is next; says whether there is one. -/
def defaultValue? (depth : Nat) : Reader Bool := do
  if ← accept .equals then
    value .constant false depth
    return true
  else return false

/-- Items of a separated list, perhaps with a separator in front. -/
def separated {α : Type} (separator : Token) (item : Reader α) : Reader (List α) := do
  let _ ← accept separator
  let first ← item
  let more ← many (· = separator) do
    skip
    item
  return first :: more

end TypedQuery.Reader
