/-
Splitting selections on an interface or a union: the part that every run-time type returns, and
for each run-time type the fragments that only some types match.
-/
import TypedQuery.Collection

namespace TypedQuery

/-- Fragments by run-time type, in the order in which the types were first matched. -/
abbrev Branches := List (String × List Expanded)

namespace Branches

/-- Adds a fragment to the branch of a type. -/
def add (typename : String) (fragment : Expanded) : Branches → Branches
  | [] => [(typename, [fragment])]
  | (t, fragments) :: rest =>
    if t = typename then (t, fragments ++ [fragment]) :: rest
    else (t, fragments) :: add typename fragment rest

/-- The fragments of a type; none if nothing matched it. -/
def get (branches : Branches) (typename : String) : List Expanded :=
  ((branches.find? (·.1 = typename)).map (·.2)).getD []

/-- The branches of the other types. -/
def remove (branches : Branches) (typename : String) : Branches :=
  branches.filter (·.1 ≠ typename)

end Branches

namespace Expanded

/-- The run-time types of `site` that a fragment on `condition` matches. -/
def matchedTypes (s : Schema) (condition site : String) : List String :=
  (s.possibleTypes site).filter (· ∈ s.possibleTypes condition)

/-- Splits `selections`, written in `scope`. A fragment that covers the site stays, with its own
selections split the same way; another goes to the branch of each type that it matches. -/
def splitInto (s : Schema) (site scope : String) (conditional : Bool)
    (selections : List Expanded) (branches : Branches) :
    Except GenerationError (List Expanded × Branches) :=
  match selections with
  | [] => .ok ([], branches)
  | field key name c sub :: rest => do
    let (common, branches) ← splitInto s site scope conditional rest branches
    .ok (field key name c sub :: common, branches)
  | undefined name :: _ => .error (.unknownFragment name)
  | cyclic name condition :: rest => do
    s.checkCompatible (.named name) condition scope
    if s.covers condition site then .error (.fragmentCycle [name, name])
    else
      let fragment := fragment .inline (some condition) conditional [cyclic name condition]
      let branches := (matchedTypes s condition site).foldl
        (fun branches t => branches.add t fragment) branches
      splitInto s site scope conditional rest branches
  | fragment label condition? c sub :: rest => do
    let condition := condition?.getD scope
    s.checkCompatible label condition scope
    if s.covers condition site then
      let (inner, branches) ← splitInto s site condition (conditional || c) sub branches
      let (common, branches) ← splitInto s site scope conditional rest branches
      .ok (fragment .inline (some condition) c inner :: common, branches)
    else
      let branch := fragment .inline (some condition) (conditional || c) sub
      let branches := (matchedTypes s condition site).foldl
        (fun branches t => branches.add t branch) branches
      splitInto s site scope conditional rest branches

/-- The common part of selections on `site`, and the branches of its run-time types. -/
def split (s : Schema) (site : String) (selections : List Expanded) :
    Except GenerationError (List Expanded × Branches) :=
  splitInto s site site false selections []

end Expanded

end TypedQuery
