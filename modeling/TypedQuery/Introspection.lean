/-
From the answer to an introspection query to schema text. Types are sorted by kind and name, so
the text does not depend on the order in which a server lists them; what has the wrong kind of
JSON value counts as absent.
-/
import TypedQuery.Json

namespace TypedQuery

namespace Json

theorem get_object_mem (members : List (String × Json)) (key : String) :
    (object members).get key = null ∨ ∃ m ∈ members, (object members).get key = m.2 := by
  unfold get
  cases h : members.reverse.find? (·.1 = key) with
  | none => exact .inl (by simp [h])
  | some m => exact .inr ⟨m, List.mem_reverse.1 (List.mem_of_find?_eq_some h), by simp [h]⟩

theorem sizeOf_get_lt {members : List (String × Json)} (key : String) :
    sizeOf ((object members).get key) < sizeOf (object members) := by
  rcases get_object_mem members key with h | ⟨m, hm, h⟩
  · rw [h]
    cases members <;> simp only [object.sizeOf_spec, null.sizeOf_spec, List.nil.sizeOf_spec, List.cons.sizeOf_spec] <;> omega
  · rw [h]
    have h1 := List.sizeOf_lt_of_mem hm
    have h2 : sizeOf m.2 < sizeOf m := by
      cases m
      simp only [Prod.mk.sizeOf_spec]
      omega
    simp only [object.sizeOf_spec]
    omega

theorem sizeOf_get_of_string {j : Json} {key s : String} (h : (j.get key).string? = some s)
    (key' : String) : sizeOf (j.get key') < sizeOf j := by
  cases j with
  | object members => exact sizeOf_get_lt key'
  | _ => simp [get, string?] at h

end Json

namespace Introspection

/-- A text member; an absent one is empty. -/
def text (j : Json) (key : String) : String := (j.get key).string?.getD ""

/-- A text member that is there and not empty. -/
def nonEmpty? (j : Json) (key : String) : Option String := (j.get key).string?.filter (· ≠ "")

/-- The items of a list member. -/
def list (j : Json) (key : String) : List Json := (j.get key).items

/-- The names of the items of a list member; an item without one is left out. -/
def names (j : Json) (key : String) : List String :=
  (list j key).filterMap fun item => (item.get "name").string?

/-- A type reference in schema notation. -/
def typeRef (j : Json) : String :=
  match _h : (j.get "kind").string? with
  | some "NON_NULL" => typeRef (j.get "ofType") ++ "!"
  | some "LIST" => "[" ++ typeRef (j.get "ofType") ++ "]"
  | _ => (j.get "name").string?.getD "Unknown"
termination_by sizeOf j
decreasing_by all_goals exact Json.sizeOf_get_of_string _h _

/-- Escapes every run of three quotes, from left to right. -/
def escapeTripleQuotes : List Char → List Char
  | '"' :: '"' :: '"' :: rest => '\\' :: '"' :: '"' :: '"' :: escapeTripleQuotes rest
  | c :: rest => c :: escapeTripleQuotes rest
  | [] => []

/-- Escapes backslashes and quotes. -/
def escapeQuotes (cs : List Char) : List Char :=
  cs.flatMap fun c => if c = '\\' || c = '"' then ['\\', c] else [c]

/-- The text that describes what follows: a block string if it has a line feed or a quote in it,
a quoted string otherwise. -/
def description (indent : String) (j : Json) : String :=
  match nonEmpty? j "description" with
  | none => ""
  | some d =>
    if d.contains '\n' || d.contains '"' then
      indent ++ "\"\"\"\n" ++ String.ofList (escapeTripleQuotes d.toList) ++ "\n" ++ indent ++
        "\"\"\"\n"
    else indent ++ "\"" ++ d ++ "\"\n"

/-- The directive of a deprecated field or value. -/
def deprecation (j : Json) : String :=
  if (j.get "isDeprecated").bool? = some true then
    match (j.get "deprecationReason").string? with
    | some reason =>
      " @deprecated(reason: \"" ++ String.ofList (escapeQuotes reason.toList) ++ "\")"
    | none => " @deprecated"
  else ""

def defaultValue (j : Json) : String :=
  match nonEmpty? j "defaultValue" with
  | some d => " = " ++ d
  | none => ""

/-- An argument or a field of an input object. -/
def inputValue (j : Json) : String :=
  text j "name" ++ ": " ++ typeRef (j.get "type") ++ defaultValue j

def arguments (j : Json) : String :=
  if (list j "args").isEmpty then ""
  else "(" ++ ", ".intercalate ((list j "args").map inputValue) ++ ")"

/-- Everything inside a type is indented so far. -/
def margin : String := "  "

def fieldLine (j : Json) : String :=
  description margin j ++ margin ++ text j "name" ++ arguments j ++ ": " ++ typeRef (j.get "type") ++
    deprecation j ++ "\n"

def inputLine (j : Json) : String := description margin j ++ margin ++ inputValue j ++ "\n"

def enumValueLine (j : Json) : String :=
  description margin j ++ margin ++ text j "name" ++ deprecation j ++ "\n"

/-- Lines between braces, after a head. -/
def block (head : String) (lines : List String) : String :=
  head ++ " \x7b\n" ++ String.join lines ++ "\x7d\n\n"

def interfaces (j : Json) : String :=
  let all := names j "interfaces"
  if all.isEmpty then "" else " implements " ++ " & ".intercalate all

/-- These scalars are part of every schema. -/
def builtinScalars : List String := ["String", "Int", "Float", "Boolean", "ID"]

/-- The definition of a type; nothing for a built-in scalar or an unknown kind. -/
def typeDefinition (j : Json) : String :=
  let name := text j "name"
  match text j "kind" with
  | "SCALAR" =>
    if name ∈ builtinScalars then "" else description "" j ++ "scalar " ++ name ++ "\n\n"
  | "ENUM" =>
    description "" j ++ block ("enum " ++ name) ((list j "enumValues").map enumValueLine)
  | "INPUT_OBJECT" =>
    description "" j ++ block ("input " ++ name) ((list j "inputFields").map inputLine)
  | "OBJECT" =>
    description "" j ++ block ("type " ++ name ++ interfaces j) ((list j "fields").map fieldLine)
  | "INTERFACE" =>
    description "" j ++
      block ("interface " ++ name ++ interfaces j) ((list j "fields").map fieldLine)
  | "UNION" =>
    description "" j ++ "union " ++ name ++ " = " ++ " | ".intercalate (names j "possibleTypes") ++
      "\n\n"
  | _ => ""

/-- The place of a kind among the kinds. -/
def kindRank : String → Nat
  | "SCALAR" => 0
  | "ENUM" => 1
  | "INPUT_OBJECT" => 2
  | "INTERFACE" => 3
  | "OBJECT" => 4
  | "UNION" => 5
  | _ => 6

/-- The order of types: by kind, then by name. -/
def typeLe (a b : Json) : Bool :=
  let ra := kindRank (text a "kind")
  let rb := kindRank (text b "kind")
  ra < rb || (ra = rb && text a "name" ≤ text b "name")

/-- Names of this form belong to introspection itself. -/
def isMeta (name : String) : Bool := ['_', '_'].isPrefixOf name.toList

/-- The types that are written, in their order. -/
def writtenTypes (schema : Json) : List Json :=
  ((list schema "types").filter fun t => !isMeta (text t "name")).mergeSort typeLe

/-- Each kind of operation with the member that names its root and the usual name. -/
def rootMembers : List (String × String × String) :=
  [("query", "queryType", "Query"), ("mutation", "mutationType", "Mutation"),
   ("subscription", "subscriptionType", "Subscription")]

/-- The roots that have a name: the operation, the name, and the usual name. -/
def roots (schema : Json) : List (String × String × String) :=
  rootMembers.filterMap fun (operation, key, usual) =>
    ((schema.get key).get "name").string?.map fun name => (operation, name, usual)

/-- The schema definition; nothing if all roots have their usual names. -/
def schemaDefinition (schema : Json) : String :=
  if (roots schema).all fun (_, name, usual) => name = usual then ""
  else block "schema" ((roots schema).map fun (operation, name, _) =>
    margin ++ operation ++ ": " ++ name ++ "\n")

/-- The schema text for the value of `__schema`. -/
def toSdl (schema : Json) : String :=
  schemaDefinition schema ++ String.join ((writtenTypes schema).map typeDefinition)

end Introspection

end TypedQuery
