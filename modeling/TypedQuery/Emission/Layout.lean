/-
Layout of bracketed lists. A group is what stands between two brackets: on one line with its
items after each other, or broken, with each item on a line of its own. Outer groups are decided
before inner ones, and a group is broken when it does not fit up to the next place where a line
may end.
-/

namespace TypedQuery.Emission

/-- Text with groups in it. `trailing` says that a broken group ends in a comma. -/
inductive Layout
  | text (s : String)
  | sequence (parts : List Layout)
  | group (items : List Layout) (trailing : Bool)
deriving Repr

namespace Layout

/-- How far the contents of brackets are indented. -/
def step : Nat := 4

/-- How much goes on a line behind its indentation. -/
def room (indent : Nat) : Nat := max (89 - indent) 60

mutual

/-- Everything on one line. -/
def flat : Layout → String
  | text s => s
  | sequence parts => String.join (flatAll parts)
  | group items _ => ", ".intercalate (flatAll items)

def flatAll : List Layout → List String
  | [] => []
  | l :: rest => l.flat :: flatAll rest

end

/-- The width of a text. -/
def width (s : String) : Nat := s.utf8ByteSize

mutual

/-- The width up to the first place where a line may end; `after` is the width behind it all. -/
def lead (after : Nat) : Layout → Nat
  | text s => width s + after
  | sequence parts => leadAll after parts
  | group _ _ => 0

def leadAll (after : Nat) : List Layout → Nat
  | [] => after
  | l :: rest => lead (leadAll after rest) l

end

/-- A new line with its indentation. -/
def newline (indent : Nat) : String := "\n" ++ String.ofList (List.replicate indent ' ')

mutual

/-- The text of a layout, and how much of the last line is used. `used` is what the line holds
already and `after` the width that has to follow on the same line. -/
def render (indent used after : Nat) : Layout → String × Nat
  | text s => (s, used + width s)
  | sequence parts => renderAll indent used after parts
  | group items trailing =>
    let line := flat (group items trailing)
    if used + width line + after ≤ room indent then (line, used + width line)
    else (renderItems (indent + step) trailing items ++ newline indent, 0)

def renderAll (indent used after : Nat) : List Layout → String × Nat
  | [] => ("", used)
  | l :: rest =>
    let (s, used) := render indent used (leadAll after rest) l
    let (t, used) := renderAll indent used after rest
    (s ++ t, used)

/-- The items of a broken group, each on its line. -/
def renderItems (indent : Nat) (trailing : Bool) : List Layout → String
  | [] => ""
  | [l] => newline indent ++ (render indent 0 0 l).1 ++ if trailing then "," else ""
  | l :: rest => newline indent ++ (render indent 0 1 l).1 ++ "," ++ renderItems indent trailing rest

end

/-- The text of a layout on a line of its own at `indent`, its indentation included. -/
def line (indent : Nat) (l : Layout) : String :=
  String.ofList (List.replicate indent ' ') ++ (render indent 0 0 l).1

end Layout

end TypedQuery.Emission
