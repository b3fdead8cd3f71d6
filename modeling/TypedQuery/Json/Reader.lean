/-
Reading JSON text: exactly the grammar of the format, with a limit on nesting and no lone
surrogates in strings.
-/
import TypedQuery.Json
import TypedQuery.Source.QuotedString

namespace TypedQuery.Json

def isBlank (c : Char) : Bool := c = ' ' || c = '\t' || c = '\n' || c = '\r'

def skipBlank (cs : List Char) : List Char := cs.dropWhile isBlank

/-- The text of a string from after its opening quote: code points, with surrogates as they were
escaped, and what follows the closing quote. -/
def stringUnits : List Char → Option (List Nat × List Char)
  | [] => none
  | '"' :: rest => some ([], rest)
  | '\\' :: 'u' :: a :: b :: c :: d :: rest => do
    let n ← QuotedString.hexValue? [a, b, c, d]
    let (units, rest) ← stringUnits rest
    pure (n :: units, rest)
  | '\\' :: e :: rest => do
    let c ← match e with
      | '"' | '\\' | '/' => some e
      | 'b' => some '\x08'
      | 'f' => some '\x0c'
      | 'n' => some '\n'
      | 'r' => some '\r'
      | 't' => some '\t'
      | _ => none
    let (units, rest) ← stringUnits rest
    pure (c.toNat :: units, rest)
  | c :: rest =>
    if c.toNat < 32 || c = '\\' then none
    else do
      let (units, rest) ← stringUnits rest
      pure (c.toNat :: units, rest)

/-- Characters of code points in which surrogates stand in pairs. -/
def joinSurrogates : List Nat → Option (List Char)
  | [] => some []
  | n :: rest =>
    if QuotedString.isHighSurrogate n then
      match rest with
      | m :: rest =>
        if QuotedString.isLowSurrogate m then
          (joinSurrogates rest).map (QuotedString.ofSurrogates n m :: ·)
        else none
      | [] => none
    else do pure ((← QuotedString.scalar? n) :: (← joinSurrogates rest))

/-- A string from after its opening quote. -/
def readString (cs : List Char) : Option (String × List Char) := do
  let (units, rest) ← stringUnits cs
  pure (String.ofList (← joinSurrogates units), rest)

/-- The digits at the head of `cs`, at least one, and the rest. -/
def digits1 (cs : List Char) : Option (List Char × List Char) :=
  let ds := cs.takeWhile Char.isDigit
  if ds.isEmpty then none else some (ds, cs.drop ds.length)

/-- The text of a number at the head of `cs`, and the rest. -/
def readNumber (cs : List Char) : Option (List Char × List Char) := do
  let (sign, cs) := if cs.head? = some '-' then (['-'], cs.tail) else ([], cs)
  let (whole, cs) ← match cs with
    | '0' :: rest => some (['0'], rest)
    | _ => digits1 cs
  let (fraction, cs) ← if cs.head? = some '.' then
      (digits1 cs.tail).map fun (ds, rest) => ('.' :: ds, rest)
    else some ([], cs)
  let (exponent, cs) ← if cs.head? = some 'e' || cs.head? = some 'E' then
      let (mark, rest) := if cs.tail.head? = some '+' || cs.tail.head? = some '-'
        then (cs.tail.take 1, cs.tail.tail) else ([], cs.tail)
      (digits1 rest).map fun (ds, rest) => ('e' :: mark ++ ds, rest)
    else some ([], cs)
  pure (sign ++ whole ++ fraction ++ exponent, cs)

/-- A literal word at the head of `cs`. -/
def readWord (word : String) (j : Json) (cs : List Char) : Option (Json × List Char) :=
  if word.toList.isPrefixOf cs then some (j, cs.drop word.length) else none

/-- Items separated by commas up to the closing bracket. -/
def readItems {α : Type} (closing : Char) (item : List Char → Option (α × List Char))
    (cs : List Char) : Option (List α × List Char) :=
  match item cs with
  | none => none
  | some (a, rest) =>
    match skipBlank rest with
    | ',' :: rest =>
      if rest.length < cs.length then
        (readItems closing item rest).map fun (more, rest) => (a :: more, rest)
      else none
    | c :: rest => if c = closing then some ([a], rest) else none
    | [] => none
termination_by cs.length

/-- The items of a bracket that was opened, perhaps none. -/
def readBracket {α : Type} (closing : Char) (item : List Char → Option (α × List Char))
    (cs : List Char) : Option (List α × List Char) :=
  if (skipBlank cs).head? = some closing then some ([], (skipBlank cs).tail)
  else readItems closing item cs

/-- A member of an object, whose value `nested` reads. -/
def readMember (nested : List Char → Option (Json × List Char)) (cs : List Char) :
    Option ((String × Json) × List Char) := do
  let '"' :: cs := skipBlank cs | none
  let (key, cs) ← readString cs
  let ':' :: cs := skipBlank cs | none
  let (value, cs) ← nested cs
  pure ((key, value), cs)

/-- A value whose parts `nested` reads. -/
def readOver (nested : List Char → Option (Json × List Char)) (cs : List Char) :
    Option (Json × List Char) :=
  match skipBlank cs with
  | [] => none
  | '"' :: rest => (readString rest).map fun (s, rest) => (string s, rest)
  | '[' :: rest => (readBracket ']' nested rest).map fun (items, rest) => (array items, rest)
  | '\x7b' :: rest =>
    (readBracket '\x7d' (readMember nested) rest).map fun (members, rest) => (object members, rest)
  | c :: rest =>
    if c = 'n' then readWord "null" null (c :: rest)
    else if c = 't' then readWord "true" (bool true) (c :: rest)
    else if c = 'f' then readWord "false" (bool false) (c :: rest)
    else (readNumber (c :: rest)).map fun (text, rest) => (number (String.ofList text), rest)

/-- A value with at most `depth` arrays and objects inside each other. -/
def readValue : Nat → List Char → Option (Json × List Char)
  | 0, cs =>
    if (skipBlank cs).head? = some '[' || (skipBlank cs).head? = some '\x7b' then none
    else readOver (fun _ => none) cs
  | depth + 1, cs => readOver (readValue depth) cs

/-- The value that a text writes, with blanks around it. -/
def parse? (depth : Nat) (text : String) : Option Json := do
  let (j, rest) ← readValue depth text.toList
  if (skipBlank rest).isEmpty then some j else none

end TypedQuery.Json
