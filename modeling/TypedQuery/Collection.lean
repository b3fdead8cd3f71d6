/-
Field collection: the response keys that selections on a type return, each with the schema field
behind it, whether the server may leave it out, and what is selected below it.

Own fields come first in the order of the text, then those of each fragment that applies to every
run-time type of the site. A repeated key is merged into its first occurrence.
-/
import TypedQuery.Expansion
import TypedQuery.Fragment

namespace TypedQuery

/-- A response key. `scope` is the type on which the field was first selected: the site, or the
condition of a fragment. -/
structure CollectedField where
  key : String
  name : String
  scope : String
  conditional : Bool
  selections : List Expanded
deriving Repr

namespace CollectedField

/-- What is selected below an occurrence that the server may leave out is marked, so that it
stays optional in the merged shape. -/
def marked (conditional : Bool) (selections : List Expanded) : List Expanded :=
  if conditional then Expanded.markConditional selections else selections

/-- The selections below two occurrences of a key. -/
def mergeSelections (f new : CollectedField) : List Expanded :=
  if new.selections.isEmpty then f.selections
  else if f.selections.isEmpty then marked new.conditional new.selections
  else marked f.conditional f.selections ++ marked new.conditional new.selections

/-- A key with one more occurrence. It is conditional only if every occurrence is. -/
def merge (f new : CollectedField) : CollectedField :=
  { f with
    conditional := f.conditional && new.conditional
    selections := f.mergeSelections new }

/-- Adds an occurrence to the keys collected on `site`. -/
def insert (site : String) (new : CollectedField) :
    List CollectedField → Except GenerationError (List CollectedField)
  | [] => .ok [new]
  | f :: rest =>
    if f.key = new.key then
      if f.name = new.name then .ok (f.merge new :: rest)
      else .error (.fieldConflict site new.key f.name new.name)
    else do
      let rest ← insert site new rest
      .ok (f :: rest)

end CollectedField

namespace Expanded

/-- The field in a selection, as collected in `scope`. -/
def ownField? (scope : String) (conditional : Bool) : Expanded → Option CollectedField
  | field key name c sub => some ⟨key, name, scope, conditional || c, sub⟩
  | _ => none

mutual

/-- Adds what `selections`, written in `scope`, return on `site`. -/
def collectInto (s : Schema) (site scope : String) (conditional : Bool)
    (selections : List Expanded) (fields : List CollectedField) :
    Except GenerationError (List CollectedField) := do
  let own := selections.filterMap (ownField? scope conditional)
  let fields ← own.foldlM (fun fields f => f.insert site fields) fields
  collectFragments s site scope conditional selections fields
termination_by (sizeOf selections, 1)

/-- Adds what the fragments among `selections` return on `site`. -/
def collectFragments (s : Schema) (site scope : String) (conditional : Bool)
    (selections : List Expanded) (fields : List CollectedField) :
    Except GenerationError (List CollectedField) :=
  match selections with
  | [] => .ok fields
  | field _ _ _ _ :: rest => collectFragments s site scope conditional rest fields
  | undefined name :: _ => .error (.unknownFragment name)
  | cyclic name condition :: rest => do
    s.checkCompatible (.named name) condition scope
    if s.covers condition site then .error (.fragmentCycle [name, name])
    else collectFragments s site scope conditional rest fields
  | fragment label condition? c sub :: rest => do
    let condition := condition?.getD scope
    s.checkCompatible label condition scope
    let fields ←
      if s.covers condition site then collectInto s site condition (conditional || c) sub fields
      else .ok fields
    collectFragments s site scope conditional rest fields
termination_by (sizeOf selections, 0)

end

/-- The response keys that selections on `site` return. -/
def collect (s : Schema) (site : String) (selections : List Expanded) :
    Except GenerationError (List CollectedField) :=
  collectInto s site site false selections []

end Expanded

end TypedQuery
