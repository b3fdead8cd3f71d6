/-
Parsers that take host tokens from the front of a list or refuse, and the layout of what they
read: names, marks, lists in brackets.
-/
import TypedQuery.Emission.HostToken
import TypedQuery.Emission.Layout

namespace TypedQuery.Emission.HostType

/-- Takes a part of a type from the front of the tokens, or refuses. -/
abbrev Parser (α : Type) := StateT (List HostToken) Option α

def peek : Parser (Option HostToken) := return (← get).head?

def peekSecond : Parser (Option HostToken) := return (← get).tail.head?

def skip : Parser Unit := modify List.tail

/-- The next token is the mark `c`. -/
def isMark (c : Char) (t? : Option HostToken) : Bool :=
  match t? with
  | some (.mark d _) => c = d
  | _ => false

/-- Takes the mark `c` if it is next. -/
def accept (c : Char) : Parser Bool := do
  if isMark c (← peek) then
    skip
    return true
  else return false

def expect (c : Char) : Parser Unit := do
  unless ← accept c do failure

/-- Takes the word `w` if it is next. -/
def acceptWord (w : String) : Parser Bool := do
  if (← peek) = some (.word w) then
    skip
    return true
  else return false

/-- Two marks that stand directly after each other come first. -/
def isPair (c d : Char) (tokens : List HostToken) : Bool :=
  tokens.head? = some (.mark c true) && isMark d tokens.tail.head?

/-- Takes two marks that stand directly after each other, if they are next. -/
def acceptPair (c d : Char) : Parser Bool := do
  if isPair c d (← get) then
    skip
    skip
    return true
  else return false

/-- Takes a double colon if it is next and the mark `c` follows it. -/
def dropColonsBefore (c : Char) : Parser Unit := do
  let tokens ← get
  if isPair ':' ':' tokens && isMark c tokens.tail.tail.head? then set tokens.tail.tail

def lifetime? : Parser (Option String) := do
  match ← peek with
  | some (.lifetime l) =>
    skip
    return some ("'" ++ l)
  | _ => return none

/-- Items separated by a comma up to a closing mark, perhaps none, with whether a comma was last.
One item takes at least one token. -/
def items {α : Type} (closing : Char) (item : Parser α) : Nat → Parser (List α × Bool)
  | 0 => failure
  | fuel + 1 => do
    if ← accept closing then return ([], true)
    let first ← item
    if ← accept ',' then
      let (more, _) ← items closing item fuel
      return (first :: more, true)
    else
      expect closing
      return ([first], false)

/-- Every item takes a token, so there are no more items than tokens. -/
def list {α : Type} (closing : Char) (item : Parser α) : Parser (List α × Bool) := do
  items closing item ((← get).length + 1)

/-- Nothing at all. -/
def blank : Layout := .sequence []

/-- Items joined by a text. -/
def joined (separator : String) : List Layout → Layout
  | [] => blank
  | [l] => l
  | l :: rest => .sequence (l :: rest.flatMap fun m => [.text separator, m])

/-- Items between brackets that may be broken. -/
def bracketed (opening : String) (contents : List Layout) (closing : String) : Layout :=
  if contents.isEmpty then .text (opening ++ closing)
  else .sequence [.text opening, .group contents true, .text closing]

end TypedQuery.Emission.HostType
