/-
Source text as a list of definitions of both kinds, executable and type system. `Document.parse`
accepts only a text that is clean throughout; `Schema.parse` takes what it can from any text.
-/
import TypedQuery.Source.Lexer
import TypedQuery.Document.Reader
import TypedQuery.Schema.Reader

namespace TypedQuery

inductive Definition
  | operation (op : Operation)
  | fragment (f : Fragment)
  | type (t : TypeDefinition)
  | roots (roots : List (OperationKind × String))
  | other

namespace Reader

/-- The extension after the word `extend`; another word does not belong there. -/
def extension : Reader Definition := do
  match ← peekSecond with
  | some (.name "schema") =>
    skip
    skip
    schemaExtension
    return .other
  | some (.name w) =>
    match typeKeyword? w with
    | some kind =>
      skip
      skip
      typeExtension kind
      return .other
    | none =>
      drop
      return .other
  | _ =>
    drop
    return .other

/-- The executable definition that begins with the word `w`, if there is one. -/
def executable? (w : String) : Option (Reader Definition) :=
  match OperationKind.ofKeyword? w with
  | some kind => some do return .operation (← operationDefinition (some kind))
  | none => if w = "fragment" then some do return .fragment (← fragmentDefinition) else none

/-- The type system definition whose keyword `w` is next, under its description. -/
def typeSystem? (w : String) (description : Option String) : Option (Reader Definition) :=
  match typeKeyword? w with
  | some kind => some do
    skip
    return .type (← typeDefinition kind description)
  | none =>
    if w = "schema" then some do
      skip
      return .roots (← schemaDefinition)
    else if w = "directive" then some do
      skip
      directiveDefinition
      return .other
    else none

/-- A token that begins no definition. -/
def stray : Reader Definition := do
  drop
  return .other

/-- One definition, or one token that begins none. -/
def definition : Reader Definition := do
  match ← peek with
  | some .openBrace => return .operation (← operationDefinition none)
  | some (.name w) =>
    match executable? w with
    | some r => r
    | none =>
      match typeSystem? w none with
      | some r => r
      | none => if w = "extend" then extension else stray
  | some (.string _) =>
    match ← peekSecond with
    | some (.name w) =>
      match typeSystem? w none with
      | some _ =>
        let description ← description?
        (typeSystem? w description).getD stray
      | none => stray
    | _ => stray
  | _ => stray

/-- Everything that follows. -/
def definitions : Reader (List Definition) := many (fun _ => true) definition

end Reader

/-- What makes a text no executable document. -/
inductive DocumentError
  | malformed
  | duplicateFragment (name : String)
deriving DecidableEq, Repr

def DocumentError.message : DocumentError → String
  | malformed => "Syntax errors in query document"
  | duplicateFragment name => "Duplicate fragment: " ++ name ++ " is defined more than once"

namespace Document

/-- Adds a definition; those that execute nothing are passed over. -/
def add (d : Document) : Definition → Except DocumentError Document
  | .operation op => .ok { d with operations := d.operations ++ [op] }
  | .fragment f =>
    if (d.fragment? f.name).isSome then .error (.duplicateFragment f.name)
    else .ok { d with fragments := d.fragments ++ [f] }
  | _ => .ok d

/-- The document of definitions in a row. -/
def ofDefinitions (definitions : List Definition) : Except DocumentError Document :=
  definitions.foldlM add ⟨[], []⟩

/-- The document that a text writes. The text must hold a definition and nothing unexpected. -/
def parse (text : String) : Except DocumentError Document :=
  match Source.lexemes? text.toList with
  | none => .error .malformed
  | some [] => .error .malformed
  | some lexemes =>
    let reading := Reader.definitions lexemes
    if reading.clean then ofDefinitions reading.value else .error .malformed

end Document

namespace Schema

/-- Adds a definition; a later root of one kind replaces an earlier one. -/
def add (s : Schema) : Definition → Schema
  | .type t => s.define t
  | .roots roots => { s with roots := roots.foldl (fun r (kind, name) => r.set kind name) s.roots }
  | _ => s

/-- The schema that a text writes, over the built-in scalars. -/
def parse (text : String) : Schema :=
  (Reader.definitions (Source.lexemes text.toList)).value.foldl add builtin

end Schema

end TypedQuery
