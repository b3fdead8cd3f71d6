/-
JSON values, with members in the order they were written. A value has three readers that never
fail: `[key]`, `.string?` and their like give nothing for a value of another kind.
-/

namespace TypedQuery

/-- A number is kept as its text. -/
inductive Json
  | null
  | bool (b : Bool)
  | number (text : String)
  | string (s : String)
  | array (items : List Json)
  | object (members : List (String × Json))
deriving Repr

namespace Json

instance : Inhabited Json := ⟨null⟩

/-- The last member of that name; null if there is none or the value is no object. -/
def get : Json → String → Json
  | object members, key => ((members.reverse.find? (·.1 = key)).map (·.2)).getD null
  | _, _ => null

def string? : Json → Option String
  | string s => some s
  | _ => none

def array? : Json → Option (List Json)
  | array items => some items
  | _ => none

def bool? : Json → Option Bool
  | bool b => some b
  | _ => none

/-- The items of an array; another value has none. -/
def items (j : Json) : List Json := j.array?.getD []

def isNull : Json → Bool
  | null => true
  | _ => false

def ofNat (n : Nat) : Json := number (toString n)

/-- A string, or null for none. -/
def ofString? : Option String → Json
  | some s => string s
  | none => null

def ofStrings (strings : List String) : Json := array (strings.map string)

end Json

end TypedQuery
