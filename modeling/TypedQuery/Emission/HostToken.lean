/-
Tokens of the type expressions that scalars are mapped to.
-/
import TypedQuery.Emission.Name

namespace TypedQuery.Emission

/-- A token. `joint` says of a mark that punctuation follows directly. -/
inductive HostToken
  | word (text : String)
  | lifetime (name : String)
  | literal (text : String)
  | mark (c : Char) (joint : Bool)
deriving DecidableEq, Repr

namespace HostToken

/-- White space, and the marks of writing direction. -/
def isBlank (c : Char) : Bool := Text.isWhiteSpace c || c = '\u200E' || c = '\u200F'

/-- Brackets are marks of their own. -/
def isBracket (c : Char) : Bool := c ∈ ['(', ')', '[', ']', '\x7b', '\x7d']

def isPunctuation (c : Char) : Bool :=
  c ∈ ['<', '>', ',', ':', ';', '&', '*', '+', '-', '=', '!', '?', '.', '|', '/', '#', '$', '%',
    '^', '~', '@', '\'']

/-- A comment, which is no punctuation, comes first. -/
def isComment (cs : List Char) : Bool := ['/', '/'].isPrefixOf cs || ['/', '*'].isPrefixOf cs

/-- A comment that documents something is not ignored. What is documented by it is no type. -/
def isDocComment (cs : List Char) : Bool :=
  let starts (s : String) := s.toList.isPrefixOf cs
  starts "///" && !starts "////" || starts "//!" || starts "/*!" ||
    starts "/**" && !starts "/***" && !starts "/**/"

def isWordStart (c : Char) : Bool := c = '_' || Text.isIdentifierStart c

/-- The number of characters in a block comment, from after its opening mark. Such comments
nest. -/
def blockComment (depth : Nat) : List Char → Option Nat
  | '*' :: '/' :: rest =>
    match depth with
    | 0 => some 2
    | depth + 1 => (blockComment depth rest).map (· + 2)
  | '/' :: '*' :: rest => (blockComment (depth + 1) rest).map (· + 2)
  | _ :: rest => (blockComment depth rest).map (· + 1)
  | [] => none

/-- The number of characters in a quoted literal up to and with the closing quote. -/
def quotedLength (quote : Char) : List Char → Option Nat
  | [] => none
  | ['\\'] => none
  | '\\' :: _ :: rest => (quotedLength quote rest).map (· + 2)
  | c :: rest => if c = quote then some 1 else (quotedLength quote rest).map (· + 1)

/-- What `c` begins where `rest` follows: a token, or nothing for ignored text, and how many
further characters it takes. -/
def scan (c : Char) (rest : List Char) : Option (Option HostToken × Nat) :=
  let word (cs : List Char) := cs.takeWhile Text.isIdentifierContinue
  if isBlank c then some (none, 0)
  else if isDocComment (c :: rest) then none
  else if ['/', '/'].isPrefixOf (c :: rest) then
    some (none, (rest.takeWhile (· ≠ '\n')).length)
  else if ['/', '*'].isPrefixOf (c :: rest) then
    (blockComment 0 rest.tail).map fun n => (none, n + 1)
  else if c = 'r' && rest.head? = some '#' && rest.tail.head?.any isWordStart then
    let raw := word rest.tail
    if String.ofList raw ∈ reserved then none
    else some (some (.word ("r#" ++ String.ofList raw)), raw.length + 1)
  else if c = '"' then
    (quotedLength '"' rest).map fun n => (some (.literal (String.ofList (c :: rest.take n))), n)
  else if isWordStart c then
    let tail := word rest
    some (some (.word (String.ofList (c :: tail))), tail.length)
  else if c.isDigit then
    let tail := word rest
    some (some (.literal (String.ofList (c :: tail))), tail.length)
  else if c = '\'' then
    match rest with
    | [] => none
    | d :: more =>
      if isWordStart d && more.head? ≠ some '\'' then
        let name := word rest
        some (some (.lifetime (String.ofList name)), name.length)
      else
        (quotedLength '\'' rest).map fun n => (some (.literal (String.ofList (c :: rest.take n))), n)
  else if isBracket c then some (some (.mark c false), 0)
  else if isPunctuation c then
    some (some (.mark c (rest.head?.any isPunctuation && !isComment rest)), 0)
  else none

/-- The tokens of a text in which everything is a token or ignored. -/
def tokensOf (text : List Char) : Option (List HostToken) :=
  match text with
  | [] => some []
  | c :: rest =>
    match scan c rest with
    | none => none
    | some (token?, n) => (tokensOf (rest.drop n)).map (token?.toList ++ ·)
termination_by text.length

/-- The tokens of a text. A byte order mark at its start is skipped. -/
def tokens? (text : String) : Option (List HostToken) :=
  match text.toList with
  | '\uFEFF' :: rest => tokensOf rest
  | cs => tokensOf cs

end HostToken

end TypedQuery.Emission
