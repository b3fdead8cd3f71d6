/-
Sets of code points written as arithmetic progressions, the form in which the tables of a
character standard are kept, and maps that move such a progression by a constant.
-/

namespace TypedQuery.Text

/-- The code points `first`, `first + step`, … up to `last`. -/
structure Stride where
  first : Nat
  last : Nat
  step : Nat
deriving DecidableEq, Repr

namespace Stride

/-- `n` is one of the code points of the progression. -/
def contains (s : Stride) (n : Nat) : Bool :=
  s.first ≤ n && n ≤ s.last && (n - s.first) % s.step == 0

/-- `n` is in one of the progressions. -/
def anyContains (table : List Stride) (n : Nat) : Bool :=
  table.any (·.contains n)

end Stride

/-- A progression of code points, each sent to the one `delta` further on. -/
structure Shift where
  source : Stride
  delta : Int
deriving DecidableEq, Repr

/-- Where the first progression that holds `n` sends it. -/
def Shift.target? (table : List Shift) (n : Nat) : Option Nat :=
  (table.find? (·.source.contains n)).map fun s => ((n : Int) + s.delta).toNat

end TypedQuery.Text
