/-
The registry of a run: shapes under distinct names, in the order of registration. A shape is kept
either under its own name, which must be free or hold the same shape, or under the first of
`Name`, `Name2`, `Name3`, … that is free or holds the same shape.
-/
import TypedQuery.GenerationError

namespace TypedQuery

structure Registry where
  shapes : List Shape
deriving DecidableEq, Repr

namespace Registry

def empty : Registry := ⟨[]⟩

def lookup? (r : Registry) (name : String) : Option Shape := r.shapes.find? (·.name = name)

def contains (r : Registry) (name : String) : Bool := (r.lookup? name).isSome

def size (r : Registry) : Nat := r.shapes.length

def names (r : Registry) : List String := r.shapes.map (·.name)

/-- The first `n` shapes. -/
def truncate (r : Registry) (n : Nat) : Registry := ⟨r.shapes.take n⟩

/-- Keeps `s` under its own name. -/
def register (r : Registry) (s : Shape) : Except GenerationError Registry :=
  match r.lookup? s.name with
  | none => .ok ⟨r.shapes ++ [s]⟩
  | some t => if t = s then .ok r else .error (.nameCollision t s)

/-- `Name`, `Name2`, `Name3`, … -/
def candidate (base : String) : Nat → String
  | 0 => base
  | n + 1 => base ++ toString (n + 2)

/-- `s` can be kept under the name `name`, which is free or holds the same shape. -/
def admits (r : Registry) (s : Shape) (name : String) : Bool :=
  match r.lookup? name with
  | none => true
  | some t => t = { s with name := name }

/-- The first candidate that admits `s`. One of the first `size + 1` does. -/
def nameFor (r : Registry) (s : Shape) : String :=
  let candidates := (List.range (r.size + 1)).map (candidate s.name)
  (candidates.find? (r.admits s)).getD s.name

/-- Keeps `s` under the first candidate name that admits it, and tells the name. -/
def registerDeduplicated (r : Registry) (s : Shape) : Registry × String :=
  let name := r.nameFor s
  (if r.contains name then r else ⟨r.shapes ++ [{ s with name := name }]⟩, name)

end Registry

end TypedQuery
