/-
JSON as text: on one line (`compact`), or with every item on a line of its own (`pretty`).
-/
import TypedQuery.Json

namespace TypedQuery.Json

/-- The lower-case hexadecimal digits of `n`, at least two. -/
def twoHexDigits (n : Nat) : List Char :=
  let digits := Nat.toDigits 16 n
  if digits.length < 2 then '0' :: digits else digits

def escapeChar (c : Char) : List Char :=
  if c = '"' || c = '\\' then ['\\', c]
  else if c = '\n' then ['\\', 'n']
  else if c = '\r' then ['\\', 'r']
  else if c = '\t' then ['\\', 't']
  else if c = '\x08' then ['\\', 'b']
  else if c = '\x0c' then ['\\', 'f']
  else if c.toNat < 32 then ['\\', 'u', '0', '0'] ++ twoHexDigits c.toNat
  else [c]

def quote (s : String) : String :=
  "\"" ++ String.ofList (s.toList.flatMap escapeChar) ++ "\""

mutual

/-- The value on one line, without blanks. -/
def compact : Json → String
  | null => "null"
  | bool b => if b then "true" else "false"
  | number text => text
  | string s => quote s
  | array items => "[" ++ ",".intercalate (compactItems items) ++ "]"
  | object members => "\x7b" ++ ",".intercalate (compactMembers members) ++ "\x7d"

def compactItems : List Json → List String
  | [] => []
  | j :: rest => j.compact :: compactItems rest

def compactMembers : List (String × Json) → List String
  | [] => []
  | (key, j) :: rest => (quote key ++ ":" ++ j.compact) :: compactMembers rest

end

/-- Lines between brackets, one step deeper than `indent`; nothing goes between the brackets if
there are no lines. -/
def block (indent : Nat) (opening closing : String) (lines : List String) : String :=
  if lines.isEmpty then opening ++ closing
  else
    let margin := "\n" ++ String.ofList (List.replicate (indent + 2) ' ')
    opening ++ margin ++ (("," ++ margin).intercalate lines) ++ "\n" ++
      String.ofList (List.replicate indent ' ') ++ closing

mutual

/-- The value with two blanks of indentation for each level. -/
def prettyAt (indent : Nat) : Json → String
  | null => "null"
  | bool b => if b then "true" else "false"
  | number text => text
  | string s => quote s
  | array items => block indent "[" "]" (prettyItems (indent + 2) items)
  | object members => block indent "\x7b" "\x7d" (prettyMembers (indent + 2) members)

def prettyItems (indent : Nat) : List Json → List String
  | [] => []
  | j :: rest => j.prettyAt indent :: prettyItems indent rest

def prettyMembers (indent : Nat) : List (String × Json) → List String
  | [] => []
  | (key, j) :: rest => (quote key ++ ": " ++ j.prettyAt indent) :: prettyMembers indent rest

end

def pretty (j : Json) : String := j.prettyAt 0

end TypedQuery.Json
