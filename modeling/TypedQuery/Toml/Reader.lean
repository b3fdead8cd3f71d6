/-
Reading TOML text.
-/
import TypedQuery.Toml
import TypedQuery.Source.QuotedString

namespace TypedQuery.Toml

def isBlank (c : Char) : Bool := c = ' ' || c = '\t'

/-- Characters that may stand for themselves in strings and comments. -/
def isPlain (c : Char) : Bool := c = '\t' || (32 ≤ c.toNat && c.toNat ≠ 127)

def skipBlank (cs : List Char) : List Char := cs.dropWhile isBlank

/-- What follows a line end, if one is next. -/
def lineEnd? : List Char → Option (List Char)
  | '\n' :: rest => some rest
  | '\r' :: '\n' :: rest => some rest
  | _ => none

/-- What follows blanks and a comment; a comment holds plain characters only. -/
def skipComment (cs : List Char) : Option (List Char) :=
  match skipBlank cs with
  | '#' :: rest =>
    let tail := rest.dropWhile isPlain
    if tail.isEmpty || (lineEnd? tail).isSome then some tail else none
  | rest => some rest

/-- What follows blanks, comments and line ends. -/
def skipLines (cs : List Char) : Option (List Char) :=
  match skipComment cs with
  | none => none
  | some tail =>
    match lineEnd? tail with
    | none => some tail
    | some rest => if rest.length < cs.length then skipLines rest else none
termination_by cs.length

/-- The character of an escape from what follows its backslash, and the rest. -/
def escape : List Char → Option (Char × List Char)
  | 'b' :: rest => some ('\x08', rest)
  | 't' :: rest => some ('\t', rest)
  | 'n' :: rest => some ('\n', rest)
  | 'f' :: rest => some ('\x0c', rest)
  | 'r' :: rest => some ('\r', rest)
  | '"' :: rest => some ('"', rest)
  | '\\' :: rest => some ('\\', rest)
  | 'u' :: rest => code 4 rest
  | 'U' :: rest => code 8 rest
  | _ => none
where
  code (digits : Nat) (cs : List Char) : Option (Char × List Char) := do
    guard ((cs.take digits).length = digits)
    let c ← (QuotedString.hexValue? (cs.take digits)).bind QuotedString.scalar?
    pure (c, cs.drop digits)

/-- A quoted string from after its opening quote. -/
def basicString (cs : List Char) : Option (List Char × List Char) :=
  match cs with
  | [] => none
  | '"' :: rest => some ([], rest)
  | '\\' :: rest =>
    match escape rest with
    | none => none
    | some (c, tail) =>
      if tail.length ≤ rest.length then (basicString tail).map fun (s, rest) => (c :: s, rest)
      else none
  | c :: rest =>
    if isPlain c then (basicString rest).map fun (s, rest) => (c :: s, rest) else none
termination_by cs.length

/-- A string between apostrophes, from after the opening one. -/
def literalString : List Char → Option (List Char × List Char)
  | [] => none
  | c :: rest =>
    if c = '\'' then some ([], rest)
    else if isPlain c then (literalString rest).map fun (s, rest) => (c :: s, rest)
    else none

/-- The end of a string over several lines, if three delimiters are next: up to two more of them
belong to the string. -/
def closing? (delimiter : Char) (cs : List Char) : Option (List Char × List Char) :=
  let run := (cs.takeWhile (· = delimiter)).length
  if run < 3 then none
  else
    let inside := min (run - 3) 2
    some (List.replicate inside delimiter, cs.drop (inside + 3))

/-- What follows blanks and line ends. -/
def skipGap : List Char → List Char
  | [] => []
  | '\r' :: '\n' :: rest => skipGap rest
  | c :: rest => if isBlank c || c = '\n' then skipGap rest else c :: rest

/-- What follows a backslash at the end of a line, with all blanks and line ends. -/
def foldedLine? (cs : List Char) : Option (List Char) := (lineEnd? (skipBlank cs)).map skipGap

/-- A quoted string over several lines, from after its opening quotes. -/
def basicLines (cs : List Char) : Option (List Char × List Char) :=
  match closing? '"' cs with
  | some done => some done
  | none =>
    match lineEnd? cs with
    | some rest =>
      if rest.length < cs.length then (basicLines rest).map fun (s, rest) => ('\n' :: s, rest)
      else none
    | none =>
      match cs with
      | [] => none
      | '\\' :: rest =>
        match foldedLine? rest with
        | some tail => if tail.length ≤ rest.length then basicLines tail else none
        | none =>
          match escape rest with
          | none => none
          | some (c, tail) =>
            if tail.length ≤ rest.length then (basicLines tail).map fun (s, rest) => (c :: s, rest)
            else none
      | c :: rest =>
        if isPlain c then (basicLines rest).map fun (s, rest) => (c :: s, rest) else none
termination_by cs.length

/-- A string over several lines between apostrophes, from after the opening ones. -/
def literalLines (cs : List Char) : Option (List Char × List Char) :=
  match closing? '\'' cs with
  | some done => some done
  | none =>
    match lineEnd? cs with
    | some rest =>
      if rest.length < cs.length then (literalLines rest).map fun (s, rest) => ('\n' :: s, rest)
      else none
    | none =>
      match cs with
      | [] => none
      | c :: rest =>
        if isPlain c then (literalLines rest).map fun (s, rest) => (c :: s, rest) else none
termination_by cs.length

/-- A line end directly after the opening delimiters is not part of the string. -/
def skipFirstLineEnd (cs : List Char) : List Char := (lineEnd? cs).getD cs

/-- A string of any of the four forms. -/
def readString? : List Char → Option (List Char × List Char)
  | '"' :: '"' :: '"' :: rest => basicLines (skipFirstLineEnd rest)
  | '\'' :: '\'' :: '\'' :: rest => literalLines (skipFirstLineEnd rest)
  | '"' :: rest => basicString rest
  | '\'' :: rest => literalString rest
  | _ => none

def isBareKeyChar (c : Char) : Bool := c.isAlphanum || c = '_' || c = '-'

/-- One part of a key: bare, or a string on one line. -/
def keyPart : List Char → Option (String × List Char)
  | '"' :: rest => (basicString rest).map fun (s, rest) => (String.ofList s, rest)
  | '\'' :: rest => (literalString rest).map fun (s, rest) => (String.ofList s, rest)
  | cs =>
    let bare := cs.takeWhile isBareKeyChar
    if bare.isEmpty then none else some (String.ofList bare, cs.drop bare.length)

/-- A key: its parts in front of the last one, and the last one. -/
def key (cs : List Char) : Option ((List String × String) × List Char) :=
  match keyPart (skipBlank cs) with
  | none => none
  | some (part, rest) =>
    match skipBlank rest with
    | '.' :: tail =>
      if tail.length < cs.length then
        (key tail).map fun ((path, last), rest) => ((part :: path, last), rest)
      else none
    | tail => some (([], part), tail)
termination_by cs.length

/-- The digits at the head of `cs` without underscores, which stand singly between digits, and
the rest. -/
def digits (isDigit : Char → Bool) (cs : List Char) : Option (List Char × List Char) :=
  let run := cs.takeWhile fun c => isDigit c || c = '_'
  let parts := run.splitOn '_'
  if parts.any List.isEmpty then none else some (parts.flatten, cs.drop run.length)

/-- The number that digits write in a base. -/
def ofDigits (base : Nat) (ds : List Char) : Nat :=
  ds.foldl (fun n c => n * base + (QuotedString.hexDigit? c).getD 0) 0

/-- Digits of a base after a prefix such as `0x`. -/
def inBase (base : Nat) (cs : List Char) : Option (Int × List Char) :=
  (digits (fun c => (QuotedString.hexDigit? c).any (· < base)) cs).map fun (ds, rest) =>
    (ofDigits base ds, rest)

/-- Decimal digits; zero leads only if it is alone. -/
def decimal (cs : List Char) : Option (Nat × List Char) := do
  let (ds, rest) ← digits Char.isDigit cs
  guard (ds.length = 1 || ds.head? ≠ some '0')
  pure (ofDigits 10 ds, rest)

/-- An integer that fits in 64 bits with a sign. -/
def readInteger (cs : List Char) : Option (Int × List Char) := do
  let (n, rest) ← match cs with
    | '0' :: 'x' :: rest => inBase 16 rest
    | '0' :: 'o' :: rest => inBase 8 rest
    | '0' :: 'b' :: rest => inBase 2 rest
    | '+' :: rest => (decimal rest).map fun (n, rest) => ((n : Int), rest)
    | '-' :: rest => (decimal rest).map fun (n, rest) => (-(n : Int), rest)
    | _ => (decimal cs).map fun (n, rest) => ((n : Int), rest)
  guard (-0x8000000000000000 ≤ n && n < 0x8000000000000000)
  pure (n, rest)

/-- The items of an array from after its bracket or a comma. -/
def arrayItems (value : List Char → Option (Toml × List Char)) (cs : List Char) :
    Option (List Toml × List Char) :=
  match skipLines cs with
  | none => none
  | some (']' :: rest) => some ([], rest)
  | some start =>
    match value start with
    | none => none
    | some (v, rest) =>
      match skipLines rest with
      | some (',' :: tail) =>
        if tail.length < cs.length then
          (arrayItems value tail).map fun (more, rest) => (v :: more, rest)
        else none
      | some (']' :: tail) => some ([v], tail)
      | _ => none
termination_by cs.length

/-- A key, an equals sign and a value. -/
def keyValue (value : List Char → Option (Toml × List Char)) (cs : List Char) :
    Option ((List String × String × Toml) × List Char) := do
  let ((path, last), rest) ← key cs
  let '=' :: rest := rest | none
  let (v, rest) ← value (skipBlank rest)
  pure ((path, last, v), rest)

/-- The pairs of an inline table, at least one, from after its brace or a comma. -/
def inlinePairs (value : List Char → Option (Toml × List Char)) (entries : Entries)
    (cs : List Char) : Option (Entries × List Char) :=
  match keyValue value cs with
  | none => none
  | some ((path, last, v), rest) =>
    match addDotted v path last entries with
    | none => none
    | some entries =>
      match skipBlank rest with
      | ',' :: tail => if tail.length < cs.length then inlinePairs value entries tail else none
      | '\x7d' :: tail => some (entries, tail)
      | _ => none
termination_by cs.length

/-- An inline table from after its brace. -/
def inlineTable (value : List Char → Option (Toml × List Char)) (cs : List Char) :
    Option (Toml × List Char) :=
  match skipBlank cs with
  | '\x7d' :: rest => some (.table [], rest)
  | _ => (inlinePairs value [] cs).map fun (entries, rest) => (.table (finishAll entries), rest)

/-- A value whose parts `nested` reads. -/
def valueOver (nested : List Char → Option (Toml × List Char)) (cs : List Char) :
    Option (Toml × List Char) :=
  match cs with
  | '[' :: rest => (arrayItems nested rest).map fun (items, rest) => (.array items, rest)
  | '\x7b' :: rest => inlineTable nested rest
  | c :: _ =>
    if c = '"' || c = '\'' then
      (readString? cs).map fun (s, rest) => (.string (String.ofList s), rest)
    else (readInteger cs).map fun (n, rest) => (.integer n, rest)
  | [] => none

/-- A value with at most `depth` arrays and inline tables inside each other. -/
def value : Nat → List Char → Option (Toml × List Char)
  | 0 => valueOver fun _ => none
  | depth + 1 => valueOver (value depth)

/-- A table header from after its bracket: the path of the parent, and the name. -/
def header (cs : List Char) : Option ((List String × String) × List Char) := do
  let (path, rest) ← key cs
  let ']' :: rest := rest | none
  pure (path, rest)

/-- A document: the entries so far, and the table that the next pair goes into. -/
structure State where
  entries : Entries
  current : List String

/-- One header or pair, if the line is not blank. Arrays nest at most as deep as the text is
long. -/
def statement (s : State) (cs : List Char) : Option (State × List Char) :=
  match cs with
  | '[' :: rest => do
    let ((path, name), rest) ← header rest
    let entries ← inTable (openTable name) path s.entries
    pure (⟨entries, path ++ [name]⟩, rest)
  | _ => do
    let ((path, last, v), rest) ← keyValue (value cs.length) cs
    let entries ← inTable (addDotted v path last) s.current s.entries
    pure (⟨entries, s.current⟩, rest)

/-- The lines of a document. -/
def lines (s : State) (cs : List Char) : Option Entries :=
  match skipLines cs with
  | none => none
  | some [] => some s.entries
  | some start =>
    match statement s start with
    | none => none
    | some (s, rest) =>
      match skipComment rest with
      | none => none
      | some [] => some s.entries
      | some tail =>
        match lineEnd? tail with
        | none => none
        | some rest => if rest.length < cs.length then lines s rest else none
termination_by cs.length

/-- The table that a text writes. A byte order mark at its start is skipped. -/
def parse? (text : String) : Option (List (String × Toml)) :=
  let cs := match text.toList with
    | '\uFEFF' :: rest => rest
    | cs => cs
  (lines ⟨[], []⟩ cs).map finishAll

end TypedQuery.Toml
