/-
Readers take lexemes from the front of a source and never fail: a reader that meets something
unexpected notes a fault and goes on. A strict client accepts a reading only if it is clean; a
lenient one takes what was read.
-/
import TypedQuery.Source.Token

namespace TypedQuery

/-- What a reader made of the front of the lexemes, and what it left. -/
structure Reading (α : Type) where
  value : α
  clean : Bool
  rest : List Lexeme

def Reader (α : Type) : Type := List Lexeme → Reading α

namespace Reader

variable {α β : Type}

def pure (a : α) : Reader α := fun ts => ⟨a, true, ts⟩

def bind (r : Reader α) (f : α → Reader β) : Reader β := fun ts =>
  let x := r ts
  let y := f x.value x.rest
  ⟨y.value, x.clean && y.clean, y.rest⟩

instance : Monad Reader where
  pure := pure
  bind := bind

/-- Notes a fault. -/
def fault : Reader Unit := fun ts => ⟨(), false, ts⟩

/-- The next token, which stays where it is. -/
def peek : Reader (Option Token) := fun ts => ⟨ts.head?.map (·.token), true, ts⟩

/-- The token after the next one. -/
def peekSecond : Reader (Option Token) := fun ts => ⟨ts.tail.head?.map (·.token), true, ts⟩

/-- Takes the next token. -/
def skip : Reader Unit := fun ts => ⟨(), true, ts.tail⟩

/-- Takes the next token, which does not belong there. -/
def drop : Reader Unit := do fault; skip

/-- Takes the next token if it is `t`, and says whether it was. -/
def accept (t : Token) : Reader Bool := do
  if (← peek) = some t then
    skip
    return true
  else return false

/-- Takes the next token if it is `t`; anything else is a fault and stays. -/
def expect (t : Token) : Reader Unit := do
  unless ← accept t do fault

/-- Takes a name if one is next. -/
def name? : Reader (Option String) := do
  match ← peek with
  | some (.name n) =>
    skip
    return some n
  | _ => return none

/-- Takes a name; without one there is a fault, and the name is empty. -/
def name : Reader String := do
  match ← name? with
  | some n => return n
  | none =>
    fault
    return ""

/-- Takes a name if it is the word `w`, and says whether it was. -/
def acceptWord (w : String) : Reader Bool := accept (.name w)

/-- Takes a string if one is next. -/
def string? : Reader (Option String) := do
  match ← peek with
  | some (.string s) =>
    skip
    return some s
  | _ => return none

/-- Reads items as long as the next token starts one. An item that takes no token ends the
list. -/
def many (starts : Token → Bool) (item : Reader α) : Reader (List α)
  | [] => ⟨[], true, []⟩
  | t :: ts =>
    if starts t.token then
      let x := item (t :: ts)
      if _h : x.rest.length < (t :: ts).length then
        let more := many starts item x.rest
        ⟨x.value :: more.value, x.clean && more.clean, more.rest⟩
      else ⟨[x.value], x.clean, x.rest⟩
    else ⟨[], true, t :: ts⟩
termination_by ts => ts.length
decreasing_by exact _h

/-- Reads at least one item; none at all is a fault. -/
def many1 (starts : Token → Bool) (item : Reader α) : Reader (List α) := do
  let items ← many starts item
  if items.isEmpty then fault
  return items

/-- Reads `item` and the text that it took. -/
def withSource (item : Reader α) : Reader (α × List Char) := fun ts =>
  let x := item ts
  ⟨(x.value, Lexeme.source (ts.take (ts.length - x.rest.length))), x.clean, x.rest⟩

end Reader

end TypedQuery
