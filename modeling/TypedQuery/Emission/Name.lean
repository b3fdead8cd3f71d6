/-
Names in the emitted code: a GraphQL name becomes a field or type name in the style of the host
language, and a word that the language keeps for itself is escaped.
-/
import TypedQuery.Text.Words

namespace TypedQuery.Emission

/-- Keywords that can be used as raw identifiers. -/
def keywords : List String :=
  ["as", "break", "const", "continue", "else", "enum", "extern", "false", "fn", "for", "if",
   "impl", "in", "let", "loop", "match", "mod", "move", "mut", "pub", "ref", "return", "static",
   "struct", "trait", "true", "type", "unsafe", "use", "where", "while", "async", "await", "dyn",
   "abstract", "become", "box", "do", "final", "macro", "override", "priv", "typeof", "unsized",
   "virtual", "yield", "try", "gen"]

/-- Words that cannot be raw identifiers either. -/
def reserved : List String := ["self", "Self", "super", "crate", "_"]

/-- A keyword as a raw identifier, a reserved word with an underscore; any other name as it is. -/
def escapeWord (name : String) : String :=
  if name ∈ reserved then name ++ "_"
  else if name ∈ keywords then "r#" ++ name
  else name

/-- An underscore or a character that starts identifiers, then characters that continue them. -/
def isIdentifier : List Char → Bool
  | [] => false
  | c :: rest => (c = '_' || Text.isIdentifierStart c) && rest.all Text.isIdentifierContinue

/-- The identifier for a name, if there is one. -/
def identifier? (name : String) : Option String :=
  let escaped := escapeWord name
  match escaped.toList with
  | 'r' :: '#' :: raw =>
    if isIdentifier raw && String.ofList raw ∉ reserved then some escaped else none
  | cs => if isIdentifier cs then some escaped else none

/-- `stem` goes in front of a name that is empty or begins with a digit. -/
def withStem (stem : String) (name : List Char) : String :=
  if name.isEmpty || name.head?.any Char.isDigit then stem ++ String.ofList name
  else String.ofList name

/-- The name of the field for a response key. -/
def fieldName (key : String) : String := withStem "field_" (Text.snake key.toList)

/-- The name of a type or a variant. -/
def typeName (name : String) : String := withStem "T" (Text.upperCamel name.toList)

/-- The name of a constant, before its suffix. -/
def constantStem (name : String) : String := String.ofList (Text.shoutySnake name.toList)

end TypedQuery.Emission
